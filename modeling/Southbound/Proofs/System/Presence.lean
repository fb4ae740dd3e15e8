import Southbound.Proofs.System.Answers
import Southbound.Proofs.System.Drain

/-!
# Presence and the connections over which it was confirmed

A group is recorded as present by a job that has sent a group-mod for it, and that was
confirmed over the connection of the job (`System.Backed`).  When another connection is
attached in its place, what was recorded stays.  So the groups that are present were all
confirmed over the connection of their device just as long as each connection that is
attached finds nothing recorded that was not confirmed over it, and no job of a connection
that was replaced records a group (`System.presence_per_connection_iff`).

A connection over which nothing was asked has confirmed nothing.  If it replaces one over
which a group was confirmed, flows are sent to that group although the new connection has
never seen it (`System.presence_outlives_connection`).
-/

namespace Southbound.System

/-- A job for a device has sent a group-mod over a connection that puts a group there, and
the device has confirmed it, or it was withdrawn from a batch. -/
def Backed (s : System) (requested : List (Ticket × Request))
    (asked : List (Ticket × Promise × Message)) (d : DeviceId) (c : ConnectionId) (g : GroupId) :
    Prop :=
  ∃ t r p mod, (t, r) ∈ requested ∧ r.device = d ∧ (t, p, .groupMod mod) ∈ asked ∧
    p.connection = c ∧ mod.command ≠ .delete ∧ mod.group.id = g ∧
    (s.Confirmed p (.groupMod mod) ∨ r.inBatch (.groupMod mod) = true ∧ s.Withdrawn p)

/-- A group is backed over a connection at the end of a run. -/
def BackedIn (s : System) (es : List Event) (d : DeviceId) (c : ConnectionId) (g : GroupId) :
    Prop :=
  (s.go es).Backed (s.requestedIn es) (s.askedIn es) d c g

/-- At the end of a run, each group that is present on a device is backed over the connection
over which the device is attached. -/
def PresentOver (s : System) (es : List Event) (d : DeviceId) : Prop :=
  ∀ c, (s.go es).pipeline.attached.get? d = some c →
    ∀ g, (s.go es).Has d (.group g) → s.BackedIn es d c g

variable {s s' : System} {d : DeviceId} {c : ConnectionId} {e : Event} {l : LaneId}
  {lane : Lane Job} {t : Ticket} {g : GroupId} {es : List Event}

/-! ## How a group comes to be present -/

/-- A group that is present after an effect was so before, or the effect records it. -/
theorem has_group_perform {q : Effect} {a : q.Answer} (hperform : s.perform d c q = .answer a s')
    (h : s'.Has d (.group g)) : s.Has d (.group g) ∨ q = .recordGroup g := by
  cases performed_of_answer hperform with
  | sent hsend =>
      exact .inl ((has_congr (records_of_pipeline (send_transported hsend).pipeline)).mp h)
  | recordedGroup g' =>
      rw [Has, GroupPresence.contains, List.contains_iff_mem] at h ⊢
      rw [GroupPresence.groups_store_self, mem_insertGroup] at h
      exact h.symm.imp_right fun heq => congrArg Effect.recordGroup heq.symm
  | forgotGroup g' =>
      left
      rw [Has, GroupPresence.contains, List.contains_iff_mem] at h ⊢
      rw [GroupPresence.groups_remove_self] at h
      exact List.mem_of_mem_filter h
  | _ => exact .inl h

/-- A group that is present on a device after an event was so before, or a job of the device
goes on and records it. -/
theorem has_group_after (hserved : s.Served) (h : (s.after e).Has d (.group g)) :
    s.Has d (.group g) ∨ ∃ l lane t c next, e = .stepJob l ∧
      s.pipeline.lanes.get? l = some lane ∧ lane.device = d ∧
      lane.running = some ⟨t, .operate c (.step (.recordGroup g) next)⟩ := by
  have hstep := deviceStep_after hserved.plain (hserved.session d).orderly e
  generalize s.after e = s' at h hstep
  cases hstep with
  | aside _ hrecords _ _ => exact .inl ((has_congr hrecords).mp h)
  | queued _ _ _ hrecords _ _ => exact .inl ((has_congr hrecords).mp h)
  | detached _ _ _ _ hrecords _ _ => exact .inl ((has_congr hrecords).mp h)
  | @worked _ l pre post lane lane' _ hl hbefore _ hwork _ _ =>
      have hlane : lane ∈ s.pipeline.lanes.ofDevice d := hbefore ▸ List.mem_append_cons_self
      have hd : lane.device = d := (Lanes.mem_ofDevice.mp hlane).2
      cases hwork with
      | started hrecords => exact .inl ((has_congr hrecords).mp h)
      | finished _ hrecords _ => exact .inl ((has_congr hrecords).mp h)
      | answered hjob hperform hrecords _ =>
          refine (has_group_perform hperform ((has_congr hrecords).mp h)).imp_right fun hq => ?_
          subst hq
          exact ⟨l, lane, _, _, _, rfl, hl, hd, hjob⟩
      | observed _ hrecords _ =>
          left
          rw [Has, GroupPresence.contains_congr (Prod.mk.inj hrecords).1] at h
          exact h
      | cleared _ hblank _ => exact absurd h (not_has_of_blank hblank)

/-- A group that a job records is present. -/
theorem has_of_recordGroup {next : Unit → Program (Outcome Result)}
    (hl : s.pipeline.lanes.get? l = some lane)
    (hjob : lane.running = some ⟨t, .operate c (.step (.recordGroup g) next)⟩) :
    (s.after (.stepJob l)).Has lane.device (.group g) := by
  obtain ⟨a, s₁, hperform, hhas⟩ := s.has_of_record? lane.device c (q := .recordGroup g) rfl
  obtain ⟨hstep, -⟩ := stepJob_answer hl hjob hperform
  show (s.stepJob l).Has lane.device (.group g)
  rw [hstep]
  exact hhas

/-- A connection that is attached is that of its device. -/
theorem attached_attach (hd : s.deviceOf? c = some d) (hrunning : s.pipeline.shuttingDown = false) :
    (s.after (.attach c)).pipeline.attached.get? d = some c := by
  rw [after_attach, hrunning, if_neg Bool.false_ne_true, insert_eq hd]
  exact Table.get?_set_self ..

/-- A group that is present was put there over another connection, if over the one that is
attached no change of groups was asked for. -/
theorem not_presentOver (hc : (s.go es).pipeline.attached.get? d = some c)
    (hg : (s.go es).Has d (.group g))
    (hasked : ∀ a ∈ s.askedIn es, a.2.1.connection = c → a.2.2.kind ≠ "group_mod") :
    ¬s.PresentOver es d := by
  intro hover
  obtain ⟨t, r, p, mod, -, -, hmem, hp, -⟩ := hover c hc g hg
  exact hasked _ hmem hp rfl

/-- All jobs of a device that work on a connection work on this one. -/
def WorksOver (s : System) (d : DeviceId) (c : ConnectionId) : Prop :=
  ∀ lane ∈ s.pipeline.lanes.ofDevice d, ∀ job ∈ lane.jobs,
    ∀ c' rest, job.work = .operate c' rest → c' = c

/-- As long as a device is attached over no other connection, its jobs work on this one. -/
theorem WorksOver.after (hserved : s.Served) (h : s.WorksOver d c)
    (honly : ∀ c', s.pipeline.attached.get? d = some c' → c' = c) (e : Event) :
    (s.after e).WorksOver d c := by
  have hstep := deviceStep_after hserved.plain (hserved.session d).orderly e
  have hopened {pre : List (Lane Job)} {last : Lane Job}
      (hopen : OpenLane (s.pipeline.lanes.ofDevice d) pre last) (job : Job)
      (hjob : job ∈ last.jobs) := h last (hopen.mem_of_mem_jobs hjob) job hjob
  refine hstep.forall_lanes h (fun r c' pre last hc' hopen _ => ?_)
    (fun pre last hopen _ _ => ?_) fun l lane hlane lane' hwork => ?_
  · rw [Lane.jobs_push]
    refine forall_mem_concat (hopened hopen) fun c'' rest hwork => ?_
    rw [Request.work_connection hwork]
    exact honly c' hc'
  · show ∀ job ∈ (last.push _).jobs, _
    rw [Lane.jobs_push]
    exact forall_mem_concat (hopened hopen) fun c' rest hwork => by cases hwork
  · rcases hwork.jobs with hsame | ⟨job, -, hjobs, hdone | ⟨c', rest, rest', hjob, hnext⟩⟩
    · rw [hsame]
      exact h lane hlane
    · rw [hdone]
      exact fun job' hjob' => h lane hlane job' (hjobs ▸ .tail _ hjob')
    · rw [hnext]
      refine List.forall_mem_cons.mpr ⟨fun c'' rest'' hwork' => ?_, fun job' hjob' =>
        h lane hlane job' (hjobs ▸ .tail _ hjob')⟩
      cases hwork'
      exact h lane hlane job (hjobs ▸ .head _) c' rest hjob

/-! ## Runs -/

section Runs

variable {config : Config} {s₀ : System} (hnew : System.new config = .ok s₀)
include hnew

/-- A group that is backed over a connection stays so. -/
theorem BackedIn.concat (h : s₀.BackedIn es d c g) (e : Event) : s₀.BackedIn (es ++ [e]) d c g := by
  have hserved := (served_new hnew).go es
  obtain ⟨t, r, p, mod, hr, hd, hasked, hc, hcommand, hg, hdone⟩ := h
  rw [BackedIn, go_concat, requestedIn_concat, askedIn_concat]
  refine ⟨t, r, p, mod, List.mem_append_left _ hr, hd, List.mem_append_left _ hasked, hc,
    hcommand, hg, ?_⟩
  exact hdone.imp (·.after hserved e) (.imp_right (·.after hserved e))

/-- A group that a job is about to record is backed over the connection of the job. -/
theorem backedIn_of_recordGroup {next : Unit → Program (Outcome Result)}
    (hl : (s₀.go es).pipeline.lanes.get? l = some lane)
    (hjob : lane.running = some ⟨t, .operate c (.step (.recordGroup g) next)⟩) :
    s₀.BackedIn es lane.device c g := by
  obtain ⟨r, hr, hd, p, mod, hcommand, hg, hasked, hc, hdone⟩ := rests_go hnew es hl hjob
  exact ⟨t, r, p, mod, hr, hd, hasked, hc, hcommand, hg, hdone⟩

/-- Each group that is present on a device is backed over a connection to the device. -/
theorem exists_backedIn (h : (s₀.go es).Has d (.group g)) :
    ∃ c, (s₀.go es).deviceOf? c = some d ∧ s₀.BackedIn es d c g := by
  induction es using List.reverseRecOn with
  | nil =>
      cases eq_of_new hnew
      cases h
  | append_singleton es e ih =>
      have hserved := (served_new hnew).go es
      rw [go_concat] at h ⊢
      rcases has_group_after hserved h with hold | ⟨l, lane, t, c, next, rfl, hl, rfl, hjob⟩
      · obtain ⟨c, hc, hbacked⟩ := ih hold
        exact ⟨c, deviceOf?_after hserved.plain e hc, hbacked.concat hnew e⟩
      · refine ⟨c, deviceOf?_after hserved.plain _ ?_,
          (backedIn_of_recordGroup hnew hl hjob).concat hnew _⟩
        exact hserved.wired.jobs l lane hl _ (Lane.mem_jobs.mpr (.inl hjob)) c _ rfl

/-- A group that was present before a connection is attached is present after it, and no other. -/
theorem has_of_attaching (hattaching : (s₀.go es).attaching? e = some c) :
    (s₀.go (es ++ [e])).Has d (.group g) ↔ (s₀.go es).Has d (.group g) := by
  rw [go_concat]
  refine has_congr ?_
  have hserved := (served_new hnew).go es
  by_contra hne
  obtain ⟨l, -, -, rfl, -⟩ := exists_job_of_records_ne hserved hne
  cases hattaching

/-- Presence is per connection in a whole run if it is so whenever a connection was attached,
and after each step in which a job records a group over a connection that was replaced. -/
theorem presentOver_of_steps
    (hattach : ∀ es₁ e c, es₁ ++ [e] <+: es → (s₀.go es₁).attaching? e = some c →
      (s₀.go (es₁ ++ [e])).pipeline.attached.get? d = some c →
      ∀ g, (s₀.go es₁).Has d (.group g) → s₀.BackedIn (es₁ ++ [e]) d c g)
    (hrecord : ∀ es₁ l lane t c c' g next, es₁ ++ [.stepJob l] <+: es →
      (s₀.go es₁).pipeline.lanes.get? l = some lane → lane.device = d →
      lane.running = some ⟨t, .operate c' (.step (.recordGroup g) next)⟩ →
      (s₀.go es₁).pipeline.attached.get? d = some c → c' ≠ c →
      s₀.BackedIn (es₁ ++ [.stepJob l]) d c g) : s₀.PresentOver es d := by
  induction es using List.reverseRecOn with
  | nil =>
      cases eq_of_new hnew
      intro c hc
      cases hc
  | append_singleton es e ih =>
      intro c hc g hg
      have hserved := (served_new hnew).go es
      by_cases he : (s₀.go es).attaching? e = some c
      · exact hattach es e c List.prefix_rfl he hc g ((has_of_attaching hnew he).mp hg)
      · have ih' := ih (fun es₁ e' c' hpre => hattach es₁ e' c' (hpre.trans (List.prefix_append ..)))
          fun es₁ l lane t c c' g next hpre =>
            hrecord es₁ l lane t c c' g next (hpre.trans (List.prefix_append ..))
        rw [go_concat] at hc hg
        have hc₀ := (attached_before hserved.plain hserved.wired hc).resolve_right he
        rcases has_group_after hserved hg with hold | ⟨l, lane, t, c', next, rfl, hl, hd, hjob⟩
        · exact (ih' c hc₀ g hold).concat hnew e
        · by_cases hc' : c' = c
          · subst hc' hd
            exact (backedIn_of_recordGroup hnew hl hjob).concat hnew _
          · exact hrecord es l lane t c c' g next List.prefix_rfl hl hd hjob hc₀ hc'

/-- Where nothing was present on a device without jobs, all that is present later was put there
over the only connection over which the device was attached since. -/
theorem backedIn_of_blank (hblank : ∀ g, ¬(s₀.go es).Has d (.group g))
    (hidle : ∀ lane ∈ (s₀.go es).pipeline.lanes.ofDevice d, lane.jobs = []) {later : List Event}
    (honly : ∀ es₁ c', es₁ <+: later →
      (s₀.go (es ++ es₁)).pipeline.attached.get? d = some c' → c' = c) :
    (s₀.go (es ++ later)).WorksOver d c ∧
      ∀ g, (s₀.go (es ++ later)).Has d (.group g) → s₀.BackedIn (es ++ later) d c g := by
  induction later using List.reverseRecOn with
  | nil =>
      rw [List.append_nil]
      refine ⟨fun lane hlane job hjob => ?_, fun g hg => absurd hg (hblank g)⟩
      rw [hidle lane hlane] at hjob
      cases hjob
  | append_singleton later e ih =>
      have hserved := (served_new hnew).go (es ++ later)
      obtain ⟨hworks, hbacked⟩ := ih fun es₁ c' hpre =>
        honly es₁ c' (hpre.trans (List.prefix_append ..))
      have hattached := honly later
      rw [← List.append_assoc, go_concat]
      refine ⟨hworks.after hserved (fun c' => hattached c' (List.prefix_append ..)) e,
        fun g hg => ?_⟩
      rcases has_group_after hserved hg with hold | ⟨l, lane, t, c', next, rfl, hl, rfl, hjob⟩
      · exact (hbacked g hold).concat hnew e
      · have hlane : lane ∈ (s₀.go (es ++ later)).pipeline.lanes.ofDevice lane.device :=
          Lanes.mem_ofDevice.mpr ⟨List.mem_of_getElem? hl, rfl⟩
        cases hworks lane hlane _ (Lane.mem_jobs.mpr (.inl hjob)) c' _ rfl
        exact (backedIn_of_recordGroup hnew hl hjob).concat hnew _

/-- Each group that is present on a device was put there over a connection to the device.  It
is always the connection over which the device is attached just if each connection that is
attached finds present only what was confirmed over it, and no job of another connection
records a group that was not.  A connection over which nothing was asked yet must find nothing
present; if it finds no jobs of the device either, presence is over that connection as long as
the device is attached over no other. -/
theorem presence_per_connection_iff (es : List Event) (d : DeviceId) :
    (∀ g, (s₀.go es).Has d (.group g) →
      ∃ c, (s₀.go es).deviceOf? c = some d ∧ s₀.BackedIn es d c g) ∧
    ((∀ es₁, es₁ <+: es → s₀.PresentOver es₁ d) ↔
      (∀ es₁ e c, es₁ ++ [e] <+: es → (s₀.go es₁).attaching? e = some c →
        (s₀.go (es₁ ++ [e])).pipeline.attached.get? d = some c →
        ∀ g, (s₀.go es₁).Has d (.group g) → s₀.BackedIn (es₁ ++ [e]) d c g) ∧
      ∀ es₁ l lane t c c' g next, es₁ ++ [.stepJob l] <+: es →
        (s₀.go es₁).pipeline.lanes.get? l = some lane → lane.device = d →
        lane.running = some ⟨t, .operate c' (.step (.recordGroup g) next)⟩ →
        (s₀.go es₁).pipeline.attached.get? d = some c → c' ≠ c →
        s₀.BackedIn (es₁ ++ [.stepJob l]) d c g) ∧
    (∀ c, (∀ a ∈ s₀.askedIn es, a.2.1.connection ≠ c) → (s₀.go es).deviceOf? c = some d →
      (s₀.go es).pipeline.shuttingDown = false →
      (s₀.PresentOver (es ++ [.attach c]) d ↔ ∀ g, ¬(s₀.go es).Has d (.group g))) ∧
    ∀ c later, (∀ g, ¬(s₀.go es).Has d (.group g)) →
      (∀ lane ∈ (s₀.go es).pipeline.lanes.ofDevice d, lane.jobs = []) →
      (∀ es₁ c', es₁ <+: later → (s₀.go (es ++ es₁)).pipeline.attached.get? d = some c' → c' = c) →
      ∀ g, (s₀.go (es ++ later)).Has d (.group g) → s₀.BackedIn (es ++ later) d c g := by
  refine ⟨fun g hg => exists_backedIn hnew hg, ⟨fun hover => ⟨?_, ?_⟩, ?_⟩, ?_, ?_⟩
  · exact fun es₁ e c hpre he hc g hg => hover _ hpre c hc g ((has_of_attaching hnew he).mpr hg)
  · intro es₁ l lane t c c' g next hpre hl hd hjob hc _
    subst hd
    refine hover _ hpre c ?_ g ?_
    · rw [go_concat, (attached_after_of_not_administers ((served_new hnew).go es₁).plain rfl).1]
      exact hc
    · rw [go_concat]
      exact has_of_recordGroup hl hjob
  · rintro ⟨hattach, hrecord⟩ es₁ hpre
    exact presentOver_of_steps hnew (fun es₂ e c h => hattach es₂ e c (h.trans hpre))
      fun es₂ l lane t c c' g next h => hrecord es₂ l lane t c c' g next (h.trans hpre)
  · intro c hfresh hd hrunning
    have hattached : (s₀.go (es ++ [.attach c])).pipeline.attached.get? d = some c := by
      rw [go_concat]
      exact attached_attach hd hrunning
    have hattaching : (s₀.go es).attaching? (.attach c) = some c := by
      rw [attaching?, hrunning]
      rfl
    constructor
    · intro hover g hg
      refine not_presentOver hattached ((has_of_attaching hnew hattaching).mpr hg)
        (fun a ha hc => ?_) hover
      rw [askedIn_concat, List.mem_append] at ha
      cases ha with
      | inl hold => exact absurd hc (hfresh a hold)
      | inr hnow => cases hnow
    · exact fun hnone c' _ g hg =>
        absurd ((has_of_attaching hnew hattaching).mp hg) (hnone g)
  · exact fun c later hblank hidle honly => (backedIn_of_blank hnew hblank hidle honly).2

end Runs

/-! ## A connection that is replaced -/

namespace Replacement

open Withdrawal (device group path asking)

/-- A group is added over one connection, and another one is opened. -/
def confirmed : List Event :=
  [.openConnection device .confirming 64, .attach 0] ++ asking (.addGroup device group) ++
    [.writer 0, .writer 0, .receive 0 [0], .stepJob 0, .stepJob 0, .stepJob 0,
      .openConnection device .confirming 64]

/-- A flow that hands packets to the group. -/
def dependent : Flow := { table := ⟨0⟩, instructions := [.applyActions [.group group.id]] }

/-- The other connection is attached, and the flow is added over it. -/
def replaced : List Event :=
  confirmed ++ [.attach 1] ++ asking (.addFlow path dependent) ++
    [.stepJob 0, .writer 1, .writer 1, .receive 1 [0], .stepJob 0, .stepJob 0, .stepJob 0]

end Replacement

theorem presence_per_connection_iff_of_confirmed :
    ∃ s₀, System.new {} = .ok s₀ ∧
      s₀.BackedIn Replacement.confirmed Withdrawal.device 0 Withdrawal.group.id ∧
      ¬s₀.PresentOver (Replacement.confirmed ++ [.attach 1]) Withdrawal.device := by
  let s₀ := start
  have hnew : System.new {} = .ok s₀ := rfl
  let es := Replacement.confirmed
  have hhas : (s₀.go es).Has Withdrawal.device (.group Withdrawal.group.id) := by decide
  have hfirst : ∀ a ∈ s₀.askedIn es, a.2.1.connection = 0 := by decide
  have hdevice : (s₀.go es).deviceOf? 1 = some Withdrawal.device := by decide
  have hrunning : (s₀.go es).pipeline.shuttingDown = false := by decide
  refine ⟨s₀, hnew, ?_⟩
  show s₀.BackedIn es Withdrawal.device 0 Withdrawal.group.id ∧
    ¬s₀.PresentOver (es ++ [Event.attach 1]) Withdrawal.device
  -- From here on the states are not to be computed.
  generalize s₀ = s at *
  generalize es = es at *
  obtain ⟨hbacked, -, hreplaced, -⟩ := presence_per_connection_iff hnew es Withdrawal.device
  constructor
  · obtain ⟨c, -, t, r, p, mod, hr, hd, hasked, hc, hdone⟩ := hbacked _ hhas
    exact ⟨t, r, p, mod, hr, hd, hasked, hfirst _ hasked, hdone⟩
  · intro hover
    have hfresh (a : Ticket × Promise × Message) (ha : a ∈ s.askedIn es) : a.2.1.connection ≠ 1 :=
      hfirst a ha ▸ Nat.zero_ne_one
    exact (hreplaced 1 hfresh hdevice hrunning).mp hover _ hhas

/-- A group that was added over a connection is taken to be present over the one that has
replaced it: a flow is added that hands packets to the group, and the group is not. -/
theorem presence_outlives_connection :
    ∃ s₀ p p', System.new {} = .ok s₀ ∧
      let es := Replacement.replaced
      s₀.askedIn es = [(0, p, .groupMod ⟨.add, Withdrawal.group⟩),
          (1, p', .flowMod (.add Replacement.dependent))] ∧
        p.connection = 0 ∧ p'.connection = 1 ∧
        (s₀.go es).pipeline.attached.get? Withdrawal.device = some 1 ∧
        (s₀.go es).jobResult? 1 =
          some (.ok (.flow ⟨Withdrawal.path.descriptor, .present Withdrawal.group.id⟩)) ∧
        ¬s₀.PresentOver es Withdrawal.device :=
  ⟨_, ⟨0, .awaited ⟨1⟩ 0⟩, ⟨1, .awaited ⟨1⟩ 0⟩, rfl, rfl, rfl, rfl, by decide, rfl,
    not_presentOver (c := 1) (g := Withdrawal.group.id) (by decide) (by decide) (by decide)⟩

end Southbound.System
