import Southbound.Proofs.System.DeviceSteps
import Southbound.Proofs.System.Lifecycle

/-!
# Sessions of a device

A device that is attached has a session, and a lane takes its jobs.  When the session
ends, its lane is released, and the last of the jobs in it clears the device
(`Lane.EndsClear`).  Of a device nothing is recorded, or one of its lanes still takes
jobs or is yet to clear it (`System.Session.recorded`).

The jobs of a session that has ended are on connections that were closed, so none of
them waits (`System.Session.jobReady_of_released`).  Where nothing can go on any more, all of
them are done, and so nothing is recorded of a device without a session
(`System.Session.blank_of_atRest`).
-/

namespace Southbound

/-- A lane has no jobs, or the last of them clears its device. -/
def Lane.EndsClear (l : Lane Job) : Prop := l.jobs = [] ∨ ∃ pre t, l.jobs = pre ++ [⟨t, .clear⟩]

/-- No request makes work that clears its device. -/
theorem Request.work_ne_clear (policy : OperationPolicy) (c : ConnectionId) (r : Request) :
    r.work policy c ≠ .clear := by
  cases r <;> exact nofun

section Lanes

variable {ls pre : List (Lane Job)} {lane l : Lane Job} {job : Job}

theorem OpenLane.mem_of_mem (h : OpenLane ls pre lane) (hl : l ∈ pre) : l ∈ ls := by
  rcases h.last with rfl | ⟨rfl, -⟩
  · exact List.mem_append_left _ hl
  · exact hl

/-- A job in the lane that takes jobs is in one of the lanes. -/
theorem OpenLane.mem_of_mem_jobs (h : OpenLane ls pre lane) (hjob : job ∈ lane.jobs) :
    lane ∈ ls := by
  rcases h.last with rfl | ⟨-, hnone⟩
  · exact List.mem_concat_self
  · rw [hnone] at hjob
    cases hjob

/-- What holds of some elements and of one more. -/
theorem forall_mem_concat {α : Type} {p : α → Prop} {as : List α} {a : α} (has : ∀ b ∈ as, p b)
    (ha : p a) : ∀ b ∈ as ++ [a], p b :=
  List.forall_mem_append.mpr ⟨has, List.forall_mem_singleton.mpr ha⟩

/-- What holds of some elements and of one that is put in the place of another. -/
theorem forall_mem_replace {α : Type} {p : α → Prop} {as bs : List α} {a a' : α}
    (h : ∀ b ∈ as ++ a :: bs, p b) (ha : p a → p a') : ∀ b ∈ as ++ a' :: bs, p b := by
  obtain ⟨has, hbs⟩ := List.forall_mem_append.mp h
  obtain ⟨hp, hbs⟩ := List.forall_mem_cons.mp hbs
  exact List.forall_mem_append.mpr ⟨has, List.forall_mem_cons.mpr ⟨ha hp, hbs⟩⟩

theorem Lane.jobs_push (l : Lane Job) (job : Job) : (l.push job).jobs = l.jobs ++ [job] :=
  (List.append_assoc ..).symm

theorem Lane.jobs_of_running (hl : l.running = some job) : l.jobs = job :: l.waiting := by
  rw [Lane.jobs, hl]
  rfl

/-- The job that is done in a lane which ends by clearing its device is that job, or the
lane has it yet to do. -/
theorem Lane.EndsClear.cases_running (h : l.EndsClear) (hl : l.running = some job) :
    l.waiting = [] ∧ (∃ t, job = ⟨t, .clear⟩) ∨ ∃ pre t, l.waiting = pre ++ [⟨t, .clear⟩] := by
  rw [Lane.EndsClear, Lane.jobs_of_running hl] at h
  rcases h with h | ⟨pre, t, h⟩
  · cases h
  · cases pre with
    | nil =>
        obtain ⟨rfl, hnone⟩ := List.cons_eq_cons.mp h
        exact .inl ⟨hnone, t, rfl⟩
    | cons job' pre => exact .inr ⟨pre, t, (List.cons_eq_cons.mp h).2⟩

end Lanes

namespace System

variable {s s' : System} {d : DeviceId} {c : ConnectionId} {e : Event} {l : LaneId}
  {lane lane' : Lane Job} {pre post : List (Lane Job)}

/-! ## The job of one lane -/

theorem LaneWork.released (h : LaneWork s d l lane e lane' s') :
    lane'.released = lane.released := by
  cases h with
  | started =>
      rw [Lane.start]
      split <;> rfl
  | _ => rfl

/-- The jobs of a lane whose job goes on: they are as they were, the first is another
part of the same operation, or the first is done. -/
theorem LaneWork.jobs (h : LaneWork s d l lane e lane' s') :
    lane'.jobs = lane.jobs ∨ ∃ job, lane.running = some job ∧ lane.jobs = job :: lane.waiting ∧
      (lane'.jobs = lane.waiting ∨ ∃ c rest rest', job.work = .operate c rest ∧
        lane'.jobs = ⟨job.ticket, .operate c rest'⟩ :: lane.waiting) := by
  cases h with
  | started => exact .inl lane.jobs_start
  | answered hjob =>
      exact .inr ⟨_, hjob, Lane.jobs_of_running hjob, .inr ⟨_, _, _, rfl, rfl⟩⟩
  | finished hjob => exact .inr ⟨_, hjob, Lane.jobs_of_running hjob, .inl rfl⟩
  | observed hjob => exact .inr ⟨_, hjob, Lane.jobs_of_running hjob, .inl rfl⟩
  | cleared hjob => exact .inr ⟨_, hjob, Lane.jobs_of_running hjob, .inl rfl⟩

/-- A lane goes on to end by clearing its device. -/
theorem LaneWork.endsClear (h : LaneWork s d l lane e lane' s') (hclear : lane.EndsClear) :
    lane'.EndsClear := by
  rcases h.jobs with hsame | ⟨job, hrunning, -, hjobs⟩
  · rw [Lane.EndsClear, hsame]
    exact hclear
  · rw [Lane.EndsClear]
    rcases hclear.cases_running hrunning with ⟨hnone, t, rfl⟩ | ⟨pre, t, hwaiting⟩
    · rcases hjobs with hdone | ⟨c, rest, rest', hwork, -⟩
      · exact .inl (hdone.trans hnone)
      · cases hwork
    · rcases hjobs with hdone | ⟨c, rest, rest', -, hnext⟩
      · exact .inr ⟨pre, t, hdone.trans hwaiting⟩
      · exact .inr ⟨_ :: pre, t, by rw [hnext, hwaiting]; rfl⟩

/-- A lane whose job goes on is not given a job that clears its device. -/
theorem LaneWork.not_clear (h : LaneWork s d l lane e lane' s')
    (hclear : ∀ job ∈ lane.jobs, job.work ≠ .clear) : ∀ job ∈ lane'.jobs, job.work ≠ .clear := by
  rcases h.jobs with hsame | ⟨job, -, hlane, hdone | ⟨c, rest, rest', -, hnext⟩⟩
  · rw [hsame]
    exact hclear
  · rw [hdone]
    exact fun job' hjob' => hclear job' (hlane ▸ .tail _ hjob')
  · rw [hnext]
    refine List.forall_mem_cons.mpr ⟨nofun, fun job' hjob' => ?_⟩
    exact hclear job' (hlane ▸ .tail _ hjob')

/-- What a job records, it records in a session that goes on or is yet to be cleared. -/
theorem LaneWork.recorded (h : LaneWork s d l lane e lane' s')
    (hclear : lane.released = true → lane.EndsClear) :
    s'.records d = s.records d ∧ lane'.jobs = lane.jobs ∨ s'.records d = ([], {}) ∨
      lane'.released = false ∨ ∃ t, ⟨t, .clear⟩ ∈ lane'.jobs := by
  -- A job that does not clear the device is not the last one of a lane that was released.
  have hmore {job : Job} (hjob : lane.running = some job) (hwork : job.work ≠ .clear)
      (hwaiting : ∀ job ∈ lane.waiting, job ∈ lane'.jobs) :
      lane'.released = false ∨ ∃ t, ⟨t, .clear⟩ ∈ lane'.jobs := by
    cases hr : lane.released with
    | false => exact .inl (h.released.trans hr)
    | true =>
        rcases (hclear hr).cases_running hjob with ⟨-, t, rfl⟩ | ⟨pre, t, hlast⟩
        · exact absurd rfl hwork
        · exact .inr ⟨t, hwaiting _ (hlast ▸ List.mem_concat_self)⟩
  cases h with
  | started hrecords => exact .inl ⟨hrecords, lane.jobs_start⟩
  | answered hjob _ _ _ => exact .inr (.inr (hmore hjob nofun fun _ hmem => .tail _ hmem))
  | finished hjob _ _ => exact .inr (.inr (hmore hjob nofun fun _ => id))
  | observed hjob _ _ => exact .inr (.inr (hmore hjob nofun fun _ => id))
  | cleared _ hblank _ => exact .inr (.inl hblank)

/-- What holds of the lanes of a device, of the lane that takes jobs once it was given one,
and of a lane whose job went on, holds of all lanes of the device. -/
theorem DeviceStep.forall_lanes {p : Lane Job → Prop} (h : DeviceStep s d e s')
    (hlanes : ∀ lane ∈ s.pipeline.lanes.ofDevice d, p lane)
    (hqueued : ∀ r c pre lane, s.pipeline.attached.get? d = some c →
      OpenLane (s.pipeline.lanes.ofDevice d) pre lane →
      s'.pipeline.attached = s.pipeline.attached →
      p (lane.push ⟨s.pipeline.tickets, Request.work s.pipeline.policy c r⟩))
    (hdetached : ∀ pre lane, OpenLane (s.pipeline.lanes.ofDevice d) pre lane →
      (s.pipeline.attached.get? d).isSome → s'.pipeline.attached.get? d = none →
      p { lane.push ⟨s.pipeline.tickets, .clear⟩ with released := true })
    (hworked : ∀ l, ∀ lane ∈ s.pipeline.lanes.ofDevice d, ∀ lane',
      LaneWork s d l lane e lane' s' → p lane') :
    ∀ lane ∈ s'.pipeline.lanes.ofDevice d, p lane := by
  cases h with
  | aside hsame _ _ _ =>
      rw [hsame]
      exact hlanes
  | @queued r quiet c pre lane _ hc hopen hqueue _ _ hattached =>
      rw [hqueue]
      refine forall_mem_concat (fun lane hlane => hlanes lane (hopen.mem_of_mem hlane)) ?_
      exact hqueued r c pre lane hc hopen hattached
  | @detached _ pre lane _ _ hsome hopen hqueue _ _ hgone =>
      rw [hqueue]
      refine forall_mem_concat (fun lane hlane => hlanes lane (hopen.mem_of_mem hlane)) ?_
      exact hdetached pre lane hopen hsome hgone
  | @worked _ l pre post lane lane' _ _ hbefore hbehind hwork _ _ =>
      have hlane : lane ∈ s.pipeline.lanes.ofDevice d := hbefore ▸ List.mem_append_cons_self
      rw [hbefore] at hlanes
      rw [hbehind]
      exact forall_mem_replace hlanes fun _ => hworked l lane hlane lane' hwork

/-! ## The invariant -/

/-- A job that works on a connection waits only for what was sent there, and the
connection was closed, or it is that of the session for which the job was queued. -/
def Attends (s : System) (d : DeviceId) (lane : Lane Job) (job : Job) : Prop :=
  ∀ c rest, job.work = .operate c rest → rest.Obeys ownPromises (s.Promised c) ∧
    (s.Closed c ∨ lane.released = false ∧ s.pipeline.attached.get? d = some c)

/-- The sessions of a device, seen from its lanes. -/
structure Session (s : System) (d : DeviceId) : Prop where
  /-- Only the last lane takes jobs. -/
  orderly : Orderly (s.pipeline.lanes.ofDevice d)
  attached : ∀ lane ∈ s.pipeline.lanes.ofDevice d, lane.released = false →
    (s.pipeline.attached.get? d).isSome
  /-- No session is cleared before it has ended. -/
  unclear : ∀ lane ∈ s.pipeline.lanes.ofDevice d, lane.released = false →
    ∀ job ∈ lane.jobs, job.work ≠ .clear
  /-- A session that has ended is cleared in the end. -/
  endsClear : ∀ lane ∈ s.pipeline.lanes.ofDevice d, lane.released = true → lane.EndsClear
  /-- What is recorded was recorded in a session that goes on or is yet to be cleared. -/
  recorded : s.records d = ([], {}) ∨ ∃ lane ∈ s.pipeline.lanes.ofDevice d,
    lane.released = false ∨ ∃ t, ⟨t, .clear⟩ ∈ lane.jobs
  attends : ∀ lane ∈ s.pipeline.lanes.ofDevice d, ∀ job ∈ lane.jobs, s.Attends d lane job

/-- What is left of the session of a device after an event. -/
structure Lasts (s s' : System) (d : DeviceId) : Prop where
  promised : ∀ c p, s.Promised c p → s'.Promised c p
  closed : ∀ c, s.Closed c → s'.Closed c
  attached : ∀ c, s.pipeline.attached.get? d = some c →
    s'.pipeline.attached.get? d = some c ∨ s'.Closed c

theorem lasts_after (hplain : s.Plain) (hwired : s.Wired) (e : Event) : Lasts s (s.after e) d where
  promised _ _ hp := hp.after hplain e
  closed _ hc := hc.after hplain e
  attached _ hc := attached_or_closed hplain hwired e hc

/-- A job goes on to attend to its session, in a lane that is released only if the
device is not attached any more. -/
theorem Attends.mono {job : Job} (hjob : s.Attends d lane job) (h : Lasts s s' d)
    (hreleased : s'.pipeline.attached.get? d = s.pipeline.attached.get? d →
      lane'.released = lane.released) : s'.Attends d lane' job := by
  intro c rest hwork
  obtain ⟨hobeys, hclosed | ⟨hopen, hc⟩⟩ := hjob c rest hwork
  · exact ⟨hobeys.mono_promises (h.promised c), .inl (h.closed c hclosed)⟩
  · refine ⟨hobeys.mono_promises (h.promised c), ?_⟩
    rcases h.attached c hc with hc' | hclosed
    · exact .inr ⟨(hreleased (hc'.trans hc.symm)).trans hopen, hc'⟩
    · exact .inl hclosed

/-- A program that goes on waits only for what was sent. -/
theorem obeys_of_answer {α : Type} {q : Effect} {next : q.Answer → Program α} {a : q.Answer}
    {s₁ : System} (h : Lasts s s' d) (hq : (Program.step q next).Obeys ownPromises (s.Promised c))
    (hperform : s.perform d c q = .answer a s₁) (hconns : s'.connections = s₁.connections) :
    (next a).Obeys ownPromises (s'.Promised c) := by
  refine hq.2 a _ ?_
  cases performed_of_answer hperform with
  | @sent m p _ hsend =>
      obtain ⟨hp, conn, hc, hopened⟩ := promised_send hsend
      exact ⟨h.promised c, hp, conn, hconns ▸ hc, hopened⟩
  | _ => exact h.promised c

/-- The job of a lane that goes on attends to its session, and so do the others. -/
theorem LaneWork.attends (hwork : LaneWork s d l lane e lane' s') (hlasts : Lasts s s' d)
    (h : ∀ job ∈ lane.jobs, s.Attends d lane job) : ∀ job ∈ lane'.jobs, s'.Attends d lane' job := by
  have hsame (job : Job) (hjob : job ∈ lane.jobs) : s'.Attends d lane' job :=
    (h job hjob).mono hlasts fun _ => hwork.released
  have hwaiting {running : Job} (hrunning : lane.running = some running) (job : Job)
      (hjob : job ∈ lane.waiting) : s'.Attends d lane' job := by
    refine hsame job ?_
    rw [Lane.jobs_of_running hrunning]
    exact .tail _ hjob
  cases hwork with
  | started =>
      rw [Lane.jobs_start]
      exact hsame
  | @answered t c q next a s₁ _ hjob hperform _ hconns =>
      refine List.forall_mem_cons.mpr ⟨fun c' rest hrest => ?_, hwaiting hjob⟩
      have hrunning : (⟨t, .operate c (.step q next)⟩ : Job) ∈ lane.jobs :=
        Lane.mem_jobs.mpr (.inl hjob)
      cases hrest
      exact ⟨obeys_of_answer hlasts (h _ hrunning c _ rfl).1 hperform hconns,
        (hsame _ hrunning c _ rfl).2⟩
  | finished hjob => exact hwaiting hjob
  | observed hjob => exact hwaiting hjob
  | cleared hjob => exact hwaiting hjob

theorem session_new {config : Config} {s₀ : System} (h : System.new config = .ok s₀)
    (d : DeviceId) : s₀.Session d := by
  cases eq_of_new h
  exact ⟨.nil, List.forall_mem_nil _, List.forall_mem_nil _, List.forall_mem_nil _, .inl rfl,
    List.forall_mem_nil _⟩

/-! ## Each part of it is kept -/

section After

variable (hplain : s.Plain) (h : s.Session d)
include hplain h

theorem Session.orderly_after (e : Event) : Orderly ((s.after e).pipeline.lanes.ofDevice d) := by
  have hstep := deviceStep_after hplain h.orderly e
  generalize s.after e = s' at hstep ⊢
  cases hstep with
  | aside hlanes _ _ _ =>
      rw [hlanes]
      exact h.orderly
  | queued _ hopen hlanes _ _ _ =>
      rw [hlanes]
      exact pairwise_concat_iff.mpr hopen.others
  | detached _ _ hopen hlanes _ _ _ =>
      rw [hlanes]
      exact pairwise_concat_iff.mpr hopen.others
  | worked _ hbefore hbehind hwork _ _ =>
      have horderly := h.orderly
      rw [hbefore] at horderly
      rw [hbehind]
      exact horderly.replace hwork.released

theorem Session.attached_after (e : Event) :
    ∀ lane ∈ (s.after e).pipeline.lanes.ofDevice d, lane.released = false →
      ((s.after e).pipeline.attached.get? d).isSome := by
  have hstep := deviceStep_after hplain h.orderly e
  generalize s.after e = s' at hstep ⊢
  cases hstep with
  | aside hlanes _ _ hstays =>
      rw [hlanes]
      exact fun lane hlane hopened => hstays (h.attached lane hlane hopened)
  | queued hc _ _ _ _ hattached =>
      rw [hattached, hc]
      exact fun _ _ _ => rfl
  | detached _ _ hopen hlanes _ _ _ =>
      rw [hlanes]
      refine forall_mem_concat (fun lane hlane hopened => ?_) nofun
      rw [hopen.others lane hlane] at hopened
      cases hopened
  | worked _ hbefore hbehind hwork _ hattached =>
      rw [hbehind, hattached]
      refine forall_mem_replace (hbefore ▸ h.attached) fun hlane hopened => ?_
      exact hlane (hwork.released.symm.trans hopened)

theorem Session.unclear_after (e : Event) :
    ∀ lane ∈ (s.after e).pipeline.lanes.ofDevice d, lane.released = false →
      ∀ job ∈ lane.jobs, job.work ≠ .clear := by
  refine (deviceStep_after hplain h.orderly e).forall_lanes h.unclear ?_ ?_ ?_
  · intro r c pre lane _ hopen _ _
    rw [Lane.jobs_push]
    refine forall_mem_concat (fun job hjob => ?_) (r.work_ne_clear _ c)
    exact h.unclear lane (hopen.mem_of_mem_jobs hjob) hopen.opened job hjob
  · intro pre lane _ _ _ hopened
    cases hopened
  · intro l lane hlane lane' hwork hopened
    exact hwork.not_clear (h.unclear lane hlane (hwork.released.symm.trans hopened))

theorem Session.endsClear_after (e : Event) :
    ∀ lane ∈ (s.after e).pipeline.lanes.ofDevice d, lane.released = true → lane.EndsClear := by
  refine (deviceStep_after hplain h.orderly e).forall_lanes h.endsClear ?_ ?_ ?_
  · intro r c pre lane _ hopen _ hreleased
    cases hopen.opened.symm.trans hreleased
  · intro pre lane _ _ _ _
    exact .inr ⟨lane.jobs, s.pipeline.tickets, lane.jobs_push _⟩
  · intro l lane hlane lane' hwork hreleased
    exact hwork.endsClear (h.endsClear lane hlane (hwork.released.symm.trans hreleased))

theorem Session.recorded_after (e : Event) :
    (s.after e).records d = ([], {}) ∨ ∃ lane ∈ (s.after e).pipeline.lanes.ofDevice d,
      lane.released = false ∨ ∃ t, ⟨t, .clear⟩ ∈ lane.jobs := by
  have hstep := deviceStep_after hplain h.orderly e
  generalize s.after e = s' at hstep ⊢
  cases hstep with
  | aside hlanes hrecords _ _ =>
      rw [hlanes, hrecords]
      exact h.recorded
  | queued _ hopen hlanes _ _ _ =>
      rw [hlanes]
      exact .inr ⟨_, List.mem_concat_self, .inl hopen.opened⟩
  | detached _ _ hopen hlanes _ _ _ =>
      rw [hlanes]
      refine .inr ⟨_, List.mem_concat_self, .inr ⟨s.pipeline.tickets, ?_⟩⟩
      exact List.mem_append_right _ List.mem_concat_self
  | @worked _ l pre post lane lane' _ _ hbefore hbehind hwork _ _ =>
      have hlane : lane ∈ s.pipeline.lanes.ofDevice d := hbefore ▸ List.mem_append_cons_self
      rw [hbehind]
      rcases hwork.recorded (h.endsClear lane hlane) with ⟨hrecords, hjobs⟩ | hblank | hwitness
      · rw [hrecords]
        refine h.recorded.imp id fun ⟨lane₁, hlane₁, hwitness⟩ => ?_
        -- The lane that was there is there, or the one in its place has its jobs.
        rw [hbefore] at hlane₁
        rcases List.mem_append.mp hlane₁ with hpre | hpost
        · exact ⟨lane₁, List.mem_append_left _ hpre, hwitness⟩
        · cases hpost with
          | head =>
              refine ⟨lane', List.mem_append_cons_self, ?_⟩
              rw [hwork.released, hjobs]
              exact hwitness
          | tail _ hpost => exact ⟨lane₁, List.mem_append_right _ (.tail _ hpost), hwitness⟩
      · exact .inl hblank
      · exact .inr ⟨lane', List.mem_append_cons_self, hwitness⟩

theorem Session.attends_after (hwired : s.Wired) (e : Event) :
    ∀ lane ∈ (s.after e).pipeline.lanes.ofDevice d, ∀ job ∈ lane.jobs,
      (s.after e).Attends d lane job := by
  have hlasts := lasts_after (d := d) hplain hwired e
  refine (deviceStep_after hplain h.orderly e).forall_lanes ?_ ?_ ?_ ?_
  · intro lane hlane job hjob
    exact (h.attends lane hlane job hjob).mono hlasts fun _ => rfl
  · intro r c pre lane hc hopen hattached
    rw [Lane.jobs_push]
    refine forall_mem_concat (fun job hjob => ?_) fun c' rest hwork => ?_
    · exact (h.attends lane (hopen.mem_of_mem_jobs hjob) job hjob).mono hlasts fun _ => rfl
    · have hobeys := r.work_obeys_ownPromises s.pipeline.policy c
      have hwork' : r.work s.pipeline.policy c = .operate c' rest := hwork
      rw [hwork'] at hobeys
      refine ⟨hobeys.mono_promises nofun, .inr ⟨hopen.opened, ?_⟩⟩
      rw [hattached, hc, Request.work_connection hwork']
  · intro pre lane hopen hsome hgone job hjob
    rcases List.mem_append.mp (lane.jobs_push _ ▸ hjob) with hold | hnew
    · refine (h.attends lane (hopen.mem_of_mem_jobs hold) job hold).mono hlasts fun hkept => ?_
      rw [← hkept, hgone] at hsome
      cases hsome
    · rw [List.mem_singleton.mp hnew]
      exact nofun
  · intro l lane hlane lane' hwork
    exact hwork.attends hlasts (h.attends lane hlane)

theorem Session.after (hwired : s.Wired) (e : Event) : (s.after e).Session d where
  orderly := h.orderly_after hplain e
  attached := h.attached_after hplain e
  unclear := h.unclear_after hplain e
  endsClear := h.endsClear_after hplain e
  recorded := h.recorded_after hplain e
  attends := h.attends_after hplain hwired e

end After

/-! ## Where nothing can go on -/

/-- Nothing can go on: no lane starts a job, no job goes on, and no errand does. -/
structure AtRest (s : System) : Prop where
  lanes : ∀ l, s.laneReady l = false
  jobs : ∀ l, s.jobReady l = false
  errands : ∀ n, s.errandReady n = false

theorem atRest_iff : s.AtRest ↔
    (∀ l < s.pipeline.lanes.all.length, s.laneReady l = false ∧ s.jobReady l = false) ∧
      ∀ n ∈ s.errands.map Prod.fst, s.errandReady n = false := by
  refine ⟨fun h => ⟨fun l _ => ⟨h.lanes l, h.jobs l⟩, fun n _ => h.errands n⟩,
    fun ⟨hlanes, herrands⟩ => ?_⟩
  have hnone {l : LaneId} (hl : ¬l < s.pipeline.lanes.all.length) :
      s.pipeline.lanes.get? l = none :=
    List.getElem?_eq_none (Nat.le_of_not_lt hl)
  refine ⟨fun l => ?_, fun l => ?_, fun n => ?_⟩
  · by_cases hl : l < s.pipeline.lanes.all.length
    · exact (hlanes l hl).1
    · rw [laneReady, hnone hl]
      rfl
  · by_cases hl : l < s.pipeline.lanes.all.length
    · exact (hlanes l hl).2
    · rw [jobReady, hnone hl]
      rfl
  · by_cases hn : n ∈ s.errands.map Prod.fst
    · exact herrands n hn
    · have hnone : s.errand? n = none := by
        refine List.lookup_eq_none_iff.mpr fun errand hmem => ?_
        have hne : n ≠ errand.1 := fun he => hn (he ▸ List.mem_map_of_mem hmem)
        simpa using hne
      rw [errandReady, hnone]

instance : Decidable s.AtRest := decidable_of_iff _ atRest_iff.symm

section Rest

variable (haccounted : s.Accounted) (h : s.Session d)
include haccounted h

/-- The job of a lane that was released does not wait. -/
theorem Session.jobReady_of_released (hl : s.pipeline.lanes.get? l = some lane)
    (hd : lane.device = d) (hreleased : lane.released = true) {job : Job}
    (hjob : lane.running = some job) : s.jobReady l = true := by
  have hlane : lane ∈ s.pipeline.lanes.ofDevice d :=
    Lanes.mem_ofDevice.mpr ⟨List.mem_of_getElem? hl, hd⟩
  have hattends := h.attends lane hlane job (Lane.mem_jobs.mpr (.inl hjob))
  obtain ⟨t, work⟩ := job
  rw [jobReady, hl, Option.bind_some, hjob]
  cases work with
  | operate c rest =>
      obtain ⟨hobeys, hclosed | ⟨hopen, -⟩⟩ := hattends c rest rfl
      · exact canRun_of_closed haccounted hclosed hobeys
      · cases hopen.symm.trans hreleased
  | observe f => rfl
  | clear => rfl

end Rest

/-! ## Runs -/

/-- What every run keeps of connections and of sessions. -/
structure Served (s : System) : Prop where
  plain : s.Plain
  wired : s.Wired
  accounted : s.Accounted
  session : ∀ d, s.Session d

theorem served_new {config : Config} {s₀ : System} (h : System.new config = .ok s₀) : s₀.Served :=
  ⟨plain_new h, wired_new h, accounted_new h, session_new h⟩

theorem Served.after (h : s.Served) (e : Event) : (s.after e).Served where
  plain := (step_after h.plain e).2
  wired := wired_after h.plain h.wired e
  accounted := h.accounted.after h.plain e
  session d := (h.session d).after h.plain h.wired e

theorem Served.go (h : s.Served) (es : List Event) : (s.go es).Served :=
  inv_go Served (fun _ e h => h.after e) h es

end System

end Southbound
