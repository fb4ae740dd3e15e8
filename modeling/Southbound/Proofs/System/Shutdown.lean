import Southbound.Proofs.System.ErrandSteps
import Southbound.Proofs.System.Queue
import Southbound.Proofs.System.Sessions

/-!
# Shutting down

A shutdown detaches the devices that are attached one after another: each time it waits
for the job that clears the device, and the next device follows.  The job that it waits
for has its result, or is in a lane that was released (`System.Awaited`), and so a
shutdown comes to its end.

As long as requests are refused, a shutdown in progress has yet to detach whatever is
still attached (`System.Covered`), provided that nobody gives it up
(`System.KeepsShutdown`).  There is one exception: whoever has seen that requests are
accepted, and then has to wait, may attach a connection after the shutdown has begun
(`System.lateIn`).
-/

namespace Southbound

namespace Pipeline

/-- A device that is attached is one of those that are. -/
theorem mem_devices {p : Pipeline} {d : DeviceId} (h : (p.attached.get? d).isSome) :
    d ∈ p.devices :=
  List.mem_mergeSort.mpr (Table.mem_keys_iff.mpr (Option.isSome_iff_ne_none.mp h))

end Pipeline

namespace System

/-- An errand is detaching devices: it waits for a job, and others are to follow. -/
def Detaching (s : System) (n : ErrandId) (t : Ticket) (rest : List DeviceId) : Prop :=
  (n, .shutdown t rest) ∈ s.errands

/-- A job has its result, or it is in a lane that was released. -/
def Awaited (s : System) (t : Ticket) : Prop :=
  (s.jobResult? t).isSome ∨ ∃ d, ∃ lane ∈ s.pipeline.lanes.ofDevice d,
    lane.released = true ∧ t ∈ lane.jobs.map Job.ticket

/-- The connections that are attached in a run although requests are refused by then. -/
def lateIn (s : System) : List Event → List ConnectionId
  | [] => []
  | e :: es =>
    (if s.pipeline.shuttingDown then (s.attaching? e).toList else []) ++ (s.after e).lateIn es

/-- If requests are refused, whatever is attached is yet to be detached, unless it was
attached late. -/
def Covered (s : System) (late : List ConnectionId) : Prop :=
  s.pipeline.shuttingDown = true → ∀ d c, s.pipeline.attached.get? d = some c →
    c ∈ late ∨ ∃ n t rest, s.Detaching n t rest ∧ d ∈ rest

/-- A run in which nobody gives up a shutdown that is in progress. -/
def KeepsShutdown (s : System) : List Event → Prop
  | [] => True
  | e :: es =>
    (∀ n t rest, e = .abandon n → ¬s.Detaching n t rest) ∧ (s.after e).KeepsShutdown es

variable {s s' s₁ : System} {d : DeviceId} {c : ConnectionId} {late : List ConnectionId}
  {n : ErrandId} {t : Ticket} {rest ds : List DeviceId}
  {e : Event} {l : LaneId} {lane lane' : Lane Job} {errand : Errand}

theorem lateIn_append (s : System) (es es' : List Event) :
    s.lateIn (es ++ es') = s.lateIn es ++ (s.go es).lateIn es' := by
  induction es generalizing s with
  | nil => rfl
  | cons e es ih => rw [List.cons_append, lateIn, lateIn, ih, go_cons, List.append_assoc]

theorem detaching_congr (h : s'.errands = s.errands) :
    s'.Detaching n t rest ↔ s.Detaching n t rest := by
  rw [Detaching, h, Detaching]

/-! ## Jobs that are waited for -/

/-- A job of a lane that goes on is still in the lane, or it has its result. -/
theorem LaneWork.awaited (h : LaneWork s d l lane e lane' s')
    (ht : t ∈ lane.jobs.map Job.ticket) :
    t ∈ lane'.jobs.map Job.ticket ∨ (s'.jobResult? t).isSome := by
  -- The job that is done is the first of the lane.
  have hdone {job : Job} (hjob : lane.running = some job)
      (hresult : (s'.jobResult? job.ticket).isSome) :
      t ∈ lane.waiting.map Job.ticket ∨ (s'.jobResult? t).isSome := by
    rw [Lane.jobs_of_running hjob, List.map_cons] at ht
    cases ht with
    | head => exact .inr hresult
    | tail _ hwaiting => exact .inl hwaiting
  cases h with
  | started => exact .inl (by rwa [Lane.jobs_start])
  | answered hjob =>
      rw [Lane.jobs_of_running hjob] at ht
      exact .inl ht
  | finished hjob _ hresult => exact hdone hjob hresult
  | observed hjob _ hresult => exact hdone hjob hresult
  | cleared hjob _ hresult => exact hdone hjob hresult

/-- A lane that was released keeps its jobs until they have results. -/
theorem Awaited.after (hplain : s.Plain) (hsession : ∀ d, s.Session d) (h : s.Awaited t)
    (e : Event) : (s.after e).Awaited t := by
  rcases h with hresult | ⟨d, lane, hlane, hreleased, ht⟩
  · exact .inl (jobResult?_after hplain e hresult)
  · have hstep := deviceStep_after hplain (hsession d).orderly e
    generalize s.after e = s' at hstep ⊢
    -- The lane that takes jobs is another one.
    have hpre {pre : List (Lane Job)} {last last' : Lane Job}
        (hopen : OpenLane (s.pipeline.lanes.ofDevice d) pre last)
        (hlanes : s'.pipeline.lanes.ofDevice d = pre ++ [last']) : s'.Awaited t := by
      refine .inr ⟨d, lane, ?_, hreleased, ht⟩
      rw [hlanes]
      refine List.mem_append_left _ ?_
      rcases hopen.last with hall | ⟨hall, -⟩
      · rw [hall] at hlane
        refine (List.mem_append.mp hlane).resolve_right fun hlast => ?_
        rw [List.mem_singleton.mp hlast, hopen.opened] at hreleased
        cases hreleased
      · exact hall ▸ hlane
    cases hstep with
    | aside hlanes _ _ _ => exact .inr ⟨d, lane, hlanes ▸ hlane, hreleased, ht⟩
    | queued _ hopen hlanes _ _ _ => exact hpre hopen hlanes
    | detached _ _ hopen hlanes _ _ _ => exact hpre hopen hlanes
    | @worked _ l pre post worked worked' _ _ hbefore hbehind hwork _ _ =>
        rw [hbefore] at hlane
        rcases List.mem_append.mp hlane with hmem | hmem
        · exact .inr ⟨d, lane, hbehind ▸ List.mem_append_left _ hmem, hreleased, ht⟩
        · cases hmem with
          | head =>
              refine (hwork.awaited ht).symm.imp id fun ht' => ?_
              exact ⟨d, worked', hbehind ▸ List.mem_append_cons_self,
                hwork.released.trans hreleased, ht'⟩
          | tail _ hmem =>
              exact .inr ⟨d, lane, hbehind ▸ List.mem_append_right _ (.tail _ hmem), hreleased, ht⟩

/-! ## Devices that are detached one after another -/

/-- Of some devices, those that are still attached follow the one that is detached, and the
job that clears it is waited for. -/
structure Follows (ds : List DeviceId) (errand : Errand) (s₁ : System) : Prop where
  awaited : ∀ t rest, errand = .shutdown t rest → s₁.Awaited t
  covered : ∀ d ∈ ds, (s₁.pipeline.attached.get? d).isSome →
    ∃ t rest, errand = .shutdown t rest ∧ d ∈ rest

theorem follows_detachNext (horderly : ∀ d, Orderly (s.pipeline.lanes.ofDevice d))
    (h : s.detachNext ds = (errand, s₁)) : Follows ds errand s₁ := by
  rcases s.detachNext_split ds with ⟨hover, hnone⟩ | ⟨pre, d, rest, t, s', rfl, hpre, hd, hnext⟩
  · cases hover.symm.trans h
    refine ⟨nofun, fun d hd hsome => ?_⟩
    rw [hnone d hd] at hsome
    cases hsome
  · cases hnext.symm.trans h
    obtain ⟨c, -, rfl, rfl⟩ := detach?_eq hd
    refine ⟨fun t' rest' he => ?_, fun d' hd' hsome => ⟨_, _, rfl, ?_⟩⟩
    · cases he
      obtain ⟨pre, lane, -, -, hreleased⟩ :=
        Lanes.exists_openLane (horderly d) ⟨s.pipeline.tickets, .clear⟩
      refine .inr ⟨d, { lane.push ⟨s.pipeline.tickets, .clear⟩ with released := true }, ?_, rfl, ?_⟩
      · show _ ∈ ((s.pipeline.lanes.enqueue d _).removeDevice d).2.ofDevice d
        rw [hreleased]
        exact List.mem_concat_self
      · exact List.mem_map.mpr ⟨_, List.mem_append_right _ List.mem_concat_self, rfl⟩
    · replace hsome : ((s.pipeline.attached.erase d).get? d').isSome := hsome
      have hne : d' ≠ d := by
        rintro rfl
        rw [Table.get?_erase_self] at hsome
        cases hsome
      rw [Table.get?_erase_of_ne hne] at hsome
      rcases List.mem_append.mp hd' with hmem | hmem
      · rw [hpre d' hmem] at hsome
        cases hsome
      · exact List.mem_of_ne_of_mem hne hmem

/-- Every errand that detaches devices waits for a job that is done or will be. -/
def AllAwaited (s : System) : Prop := ∀ n t rest, s.Detaching n t rest → s.Awaited t

theorem AllAwaited.after (hplain : s.Plain) (hsession : ∀ d, s.Session d) (hnumbered : s.Numbered)
    (h : s.AllAwaited) (e : Event) : (s.after e).AllAwaited := by
  have hstep := errandStep_after hnumbered e
  have hold (n : ErrandId) (t : Ticket) (rest : List DeviceId) (hmem : s.Detaching n t rest) :=
    (h n t rest hmem).after hplain hsession e
  have horderly (d : DeviceId) := (hsession d).orderly
  generalize s.after e = s' at hstep hold ⊢
  intro n t rest hmem
  cases hstep with
  | passed hpassed => exact hold n t rest (hpassed.sublist.subset hmem)
  | begun hpassed hother =>
      rcases List.mem_append.mp hmem with hmem | hnew
      · exact hold n t rest (hpassed.sublist.subset hmem)
      · cases List.mem_singleton.mp hnew
        cases hother
  | abandoned he _ =>
      rw [Detaching, he] at hmem
      exact hold n t rest (List.mem_filter.mp hmem).1
  | advanced _ _ hother he _ =>
      rw [Detaching, he, mem_setErrand] at hmem
      rcases hmem with ⟨-, hmem⟩ | ⟨-, rfl, -⟩
      · exact hold n t rest hmem
      · cases hother
  | shutdown _ hnext =>
      have hfollows :=
        follows_detachNext (s := { s with pipeline.shuttingDown := true }) horderly hnext
      have he := (errands_detachNext hnext).1
      rcases List.mem_append.mp hmem with hmem | hnew
      · exact hold n t rest ((detaching_congr he).mp hmem)
      · cases List.mem_singleton.mp hnew
        exact hfollows.awaited t rest rfl
  | detached _ _ hnext =>
      have hfollows := follows_detachNext horderly hnext
      have he := (errands_detachNext hnext).1
      rw [Detaching, mem_setErrand] at hmem
      rcases hmem with ⟨-, hmem⟩ | ⟨-, rfl, -⟩
      · exact hold n t rest ((detaching_congr he).mp hmem)
      · exact hfollows.awaited t rest rfl

/-- The first device is detached when a shutdown is begun. -/
theorem after_shutdown (hrunning : s.pipeline.shuttingDown = false) :
    s.after .shutdown =
      let r := detachNext { s with pipeline.shuttingDown := true } s.pipeline.devices
      (r.2.begin r.1).2 := by
  simp only [after, beginShutdown, hrunning, Bool.false_eq_true, if_false]

/-- A shutdown is begun. -/
theorem covered_shutdown (horderly : ∀ d, Orderly (s.pipeline.lanes.ofDevice d))
    (hrunning : s.pipeline.shuttingDown = false) : (s.after .shutdown).Covered late := by
  intro _ d c hd
  replace hd : ((s.after .shutdown).pipeline.attached.get? d).isSome := by
    rw [hd]
    rfl
  right
  rw [after_shutdown hrunning] at hd ⊢
  generalize hnext : detachNext { s with pipeline.shuttingDown := true } s.pipeline.devices = r
    at hd ⊢
  obtain ⟨errand, s₁⟩ := r
  have hbefore : (s.pipeline.attached.get? d).isSome := by
    have hkeeps :=
      (detachNext_keeps { s with pipeline.shuttingDown := true } s.pipeline.devices).2 d
    rw [hnext] at hkeeps
    exact hkeeps hd
  have hfollows :=
    follows_detachNext (s := { s with pipeline.shuttingDown := true }) horderly hnext
  obtain ⟨t, rest, rfl, hmem⟩ := hfollows.covered d (Pipeline.mem_devices hbefore) hd
  exact ⟨_, t, rest, List.mem_concat_self, hmem⟩

/-- A connection that is attached is yet to be detached, or it was just attached. -/
theorem Covered.after (hplain : s.Plain) (hwired : s.Wired) (hsession : ∀ d, s.Session d)
    (hnumbered : s.Numbered) (h : s.Covered late) (e : Event)
    (hkeeps : ∀ n t rest, e = .abandon n → ¬s.Detaching n t rest) :
    (s.after e).Covered (late ++ s.lateIn [e]) := by
  have horderly (d : DeviceId) := (hsession d).orderly
  cases hrunning : s.pipeline.shuttingDown with
  | false =>
      by_cases he : e = .shutdown
      · rw [he]
        exact covered_shutdown horderly hrunning
      · intro hrefused
        rw [shuttingDown_after_of_ne hplain he, hrunning] at hrefused
        cases hrefused
  | true =>
      intro _ d c hd
      rcases attached_before hplain hwired hd with hold | hattaching
      swap
      · refine .inl (List.mem_append_right _ ?_)
        rw [lateIn, hrunning, hattaching]
        exact .head _
      rcases h hrunning d c hold with hlate | ⟨n, t, rest, hmem, hrest⟩
      · exact .inl (List.mem_append_left _ hlate)
      right
      replace hd : ((s.after e).pipeline.attached.get? d).isSome := by
        rw [hd]
        rfl
      have hstep := errandStep_after hnumbered e
      generalize s.after e = s' at hstep hd ⊢
      cases hstep with
      | passed hpassed => exact ⟨n, t, rest, hpassed.stays _ hmem rfl, hrest⟩
      | begun hpassed _ =>
          exact ⟨n, t, rest, List.mem_append_left _ (hpassed.stays _ hmem rfl), hrest⟩
      | @abandoned n' _ he _ =>
          refine ⟨n, t, rest, ?_, hrest⟩
          rw [Detaching, he]
          refine List.mem_filter.mpr ⟨hmem, decide_eq_true ?_⟩
          rintro rfl
          exact hkeeps n t rest rfl hmem
      | @advanced n' _ _ _ hn' hother _ he _ =>
          refine ⟨n, t, rest, ?_, hrest⟩
          rw [Detaching, he, mem_setErrand]
          refine .inl ⟨?_, hmem⟩
          rintro rfl
          cases hn'.symm.trans (hnumbered.errand?_eq_some_iff.mpr hmem)
          cases hother
      | shutdown hopen _ => cases hopen.symm.trans hrunning
      | @detached n' t' rest' errand s₁ hn' _ hnext =>
          have hfollows := follows_detachNext horderly hnext
          have he := (errands_detachNext hnext).1
          by_cases hn : n = n'
          · subst hn
            cases hn'.symm.trans (hnumbered.errand?_eq_some_iff.mpr hmem)
            obtain ⟨t₁, rest₁, rfl, hrest₁⟩ := hfollows.covered d hrest hd
            refine ⟨n, t₁, rest₁, (mem_setErrand ..).mpr (.inr ⟨rfl, rfl, ?_⟩), hrest₁⟩
            exact List.mem_map.mpr ⟨_, (detaching_congr he).mpr hmem, rfl⟩
          · refine ⟨n, t, rest, (mem_setErrand ..).mpr (.inl ⟨hn, ?_⟩), hrest⟩
            exact (detaching_congr he).mpr hmem

end System

end Southbound
