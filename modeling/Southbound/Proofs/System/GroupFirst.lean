import Southbound.Proofs.Operation.GroupFirst
import Southbound.Proofs.Registry.GroupPresence
import Southbound.Proofs.System.Unbroken

/-!
# Flows are installed after their group

When a flow is handed over to be installed, the group that it depends on is known to be
on the device.  That holds in every run that is `Unbroken`, and so as long as devices
stay attached (`System.dependency_present`).

A job looks at the registry and then sends, and no other job of its device comes in
between.  `Guarded` is the invariant: what remains of each job follows the
discipline `groupFirst`, with a group that is known to be there only while the job is
about to send.

A flow depends on the first of its groups only.  So all its groups are there in every
run exactly if it has no other (`System.installed_with_groups_iff`).
-/

namespace Southbound.System

/-! ## The store -/

/-- Every group is configured under its own id. -/
def Keyed (st : Store) : Prop := ∀ d g group, st.group? d g = some group → group.id = g

theorem Keyed.of_groups {st st' : Store} (h : Keyed st) (he : st'.groups = st.groups) :
    Keyed st' := by
  intro d g group hg
  rw [Store.group?] at hg
  rw [he] at hg
  exact h d g group hg

theorem Keyed.configured {st st' : Store} (h : Keyed st) (hc : Configured st st') : Keyed st' := by
  cases hc with
  | kept he => exact h.of_groups he
  | put d group =>
      intro d' g group' hg
      rw [Store.group?, Store.putGroup] at hg
      by_cases hk : (d', g) = (d, group.id)
      · cases hk
        rw [Table.get?_set_self] at hg
        rw [Option.some.inj hg]
      · rw [Table.get?_set_of_ne hk] at hg
        exact h d' g group' hg
  | removed d g =>
      intro d' g' group hg
      rw [Store.group?, Store.removeGroup] at hg
      by_cases hk : (d', g') = (d, g)
      · rw [hk, Table.get?_erase_self] at hg
        cases hg
      · rw [Table.get?_erase_of_ne hk] at hg
        exact h d' g' group hg

/-! ## The invariant -/

/-- The lane of a job that follows the discipline, and what it knows. -/
structure Guards (s : System) (busy : List LaneId) (l : LaneId) (lane : Lane Job) : Prop where
  /-- No job that waits knows anything. -/
  waiting : ∀ job ∈ lane.waiting, job.work.Obeys groupFirst none
  /-- The job that is being done knows of a group only while it is about to send. -/
  running : ∀ job, lane.running = some job → ∃ k, job.work.Obeys groupFirst k ∧
    (∀ g, k = some g → s.pipeline.groups.contains lane.device g = true) ∧ (l ∉ busy → k = none)

/-- Every job follows the discipline. -/
structure Guarded (s : System) (busy : List LaneId) : Prop where
  keyed : Keyed s.store
  lanes : ∀ l lane, s.pipeline.lanes.get? l = some lane → s.Guards busy l lane

section Guarded

variable {s s' : System} {busy : List LaneId} {d : DeviceId} {c : ConnectionId}

/-- A program that does not send next knows nothing that counts. -/
theorem obeys_of_not_send {α : Type} {p : Program α} {k k' : Option GroupId}
    (h : p.Obeys groupFirst k) (hsend : ∀ m next, p ≠ .step (.send m) next) :
    p.Obeys groupFirst k' := by
  cases p with
  | done a => trivial
  | step e next =>
      cases e with
      | send m => exact absurd rfl (hsend m next)
      | _ => exact h

/-- A group that is read from the store is the one that was asked for. -/
theorem Keyed.readGroup {st : Store} (h : Keyed st) {g : GroupId} {group : Group}
    (hread : st.readGroup? d g = some (.ok (some group))) : group.id = g := by
  rw [Store.readGroup?] at hread
  split at hread
  · cases hread
  · split at hread
    · cases hread
    · split at hread
      · cases hread
      · exact h d g group (Except.ok.inj (Option.some.inj hread))

/-- What a program knows after an effect is so. -/
theorem exists_next {e : Effect} {a : e.Answer} {k : Option GroupId}
    (h : s.perform d c e = .answer a s') (hkeyed : Keyed s.store)
    (hk : ∀ g, k = some g → s.pipeline.groups.contains d g = true) :
    ∃ k', groupFirst.next k e a k' ∧
      ∀ g, k' = some g → s'.pipeline.groups.contains d g = true := by
  cases performed_of_answer h with
  | sent hsend =>
      refine ⟨k, rfl, ?_⟩
      rw [(send_transported hsend).pipeline]
      exact hk
  | hadGroup g =>
      refine ⟨_, rfl, fun g' hg' => ?_⟩
      split at hg'
      · next hthere =>
          cases hg'
          exact hthere
      · cases hg'
  | recordedGroup g =>
      refine ⟨some g, rfl, fun g' hg' => ?_⟩
      cases hg'
      exact s.pipeline.groups.contains_store_self d g
  | readGroup hread =>
      refine ⟨none, ⟨rfl, fun group hgroup => ?_⟩, fun g' hg' => by cases hg'⟩
      exact hkeyed.readGroup (hgroup ▸ hread)
  | _ => exact ⟨none, rfl, fun g hg => by cases hg⟩

/-- An effect changes nothing of what is known of the groups of another device. -/
theorem perform_groups_of_ne {e : Effect} {a : e.Answer} {d' : DeviceId} (hne : d' ≠ d)
    (h : s.perform d c e = .answer a s') :
    s'.pipeline.groups.groups d' = s.pipeline.groups.groups d' := by
  cases performed_of_answer h with
  | sent hsend => rw [(send_transported hsend).pipeline]
  | recordedGroup g => exact GroupPresence.groups_store_of_ne hne s.pipeline.groups g
  | forgotGroup g => exact GroupPresence.groups_remove_of_ne hne s.pipeline.groups g
  | _ => rfl

/-- A lane with the same job being done, and with jobs that wait and know nothing. -/
theorem Guards.transfer {l : LaneId} {lane lane' : Lane Job} (h : s.Guards busy l lane)
    (hgroups : s'.pipeline.groups.groups lane.device = s.pipeline.groups.groups lane.device)
    (hdevice : lane'.device = lane.device) (hrunning : lane'.running = lane.running)
    (hwaiting : ∀ job ∈ lane'.waiting, job.work.Obeys groupFirst none) :
    s'.Guards busy l lane' := by
  refine ⟨hwaiting, fun job hjob => ?_⟩
  rw [hrunning] at hjob
  obtain ⟨k, hobeys, hk, hidle⟩ := h.running job hjob
  refine ⟨k, hobeys, fun g hg => ?_, hidle⟩
  rw [hdevice, GroupPresence.contains_congr hgroups]
  exact hk g hg

/-- The pipeline changes, but neither its jobs nor what is known of groups. -/
theorem Guarded.of_lanes (h : s.Guarded busy) (hstore : Configured s.store s'.store)
    (hlanes : s'.pipeline.lanes = s.pipeline.lanes)
    (hgroups : s'.pipeline.groups = s.pipeline.groups) : s'.Guarded busy := by
  refine ⟨h.keyed.configured hstore, fun l lane hl => ?_⟩
  rw [hlanes] at hl
  have hg := h.lanes l lane hl
  exact hg.transfer (by rw [hgroups]) rfl rfl hg.waiting

/-- A job that knows nothing is queued. -/
theorem Guarded.enqueue (h : s.Guarded busy) (job : Job) (hjob : job.work.Obeys groupFirst none)
    (hstore : s'.store = s.store) (hlanes : s'.pipeline.lanes = s.pipeline.lanes.enqueue d job)
    (hgroups : s'.pipeline.groups = s.pipeline.groups) : s'.Guarded busy := by
  refine ⟨hstore ▸ h.keyed, fun l lane hl => ?_⟩
  rw [hlanes] at hl
  cases Lanes.get?_enqueue hl with
  | inr hnew =>
      obtain ⟨⟨generation, rfl⟩, -⟩ := hnew
      refine ⟨fun job' hjob' => ?_, fun job' hjob' => by cases hjob'⟩
      rw [List.mem_singleton.mp hjob']
      exact hjob
  | inl hold =>
      obtain ⟨lane₀, hl₀, heq⟩ := hold
      have hg := h.lanes l lane₀ hl₀
      rcases heq with rfl | ⟨-, rfl⟩
      · exact hg.transfer (by rw [hgroups]) rfl rfl hg.waiting
      · refine hg.transfer (by rw [hgroups]) rfl rfl fun job' hjob' => ?_
        cases List.mem_append.mp hjob' with
        | inl hm => exact hg.waiting job' hm
        | inr hm => exact List.mem_singleton.mp hm ▸ hjob

/-- A lane is released. -/
theorem Guarded.removeDevice (h : s.Guarded busy) (hstore : s'.store = s.store)
    (hlanes : s'.pipeline.lanes = (s.pipeline.lanes.removeDevice d).2)
    (hgroups : s'.pipeline.groups = s.pipeline.groups) : s'.Guarded busy := by
  refine ⟨hstore ▸ h.keyed, fun l lane hl => ?_⟩
  rw [hlanes] at hl
  obtain ⟨lane₀, hl₀, heq⟩ := Lanes.get?_removeDevice hl
  have hg := h.lanes l lane₀ hl₀
  rcases heq with rfl | rfl
  · exact hg.transfer (by rw [hgroups]) rfl rfl hg.waiting
  · exact hg.transfer (by rw [hgroups]) rfl rfl hg.waiting

/-- A lane starts its next job, which knows nothing. -/
theorem Guarded.startJob (h : s.Guarded busy) (l : LaneId) : (s.startJob l).Guarded busy := by
  refine ⟨h.keyed, fun l' lane' hl' => ?_⟩
  have hmod := Lanes.get?_modify s.pipeline.lanes l l' Lane.start
  rw [show (s.pipeline.lanes.modify l Lane.start).get? l' = some lane' from hl'] at hmod
  split at hmod
  · next he =>
      subst he
      obtain ⟨lane, hl, rfl⟩ := Option.map_eq_some_iff.mp hmod.symm
      have hg := h.lanes l lane hl
      rw [Lane.start]
      split
      · next job jobs hr hw =>
          refine ⟨fun job' hjob' => hg.waiting job' ?_, fun job' hjob' => ?_⟩
          · rw [hw]
            exact .tail _ hjob'
          · cases hjob'
            refine ⟨none, hg.waiting job ?_, by simp, fun _ => rfl⟩
            rw [hw]
            exact .head _
      · exact hg.transfer rfl rfl rfl hg.waiting
  · have hg := h.lanes l' lane' hmod.symm
    exact hg.transfer rfl rfl rfl hg.waiting

/-! ## Jobs that go on -/

theorem mem_noteBusy_of_ne {l l' : LaneId} (hne : l' ≠ l) :
    l' ∈ s.noteBusy busy l ↔ l' ∈ busy := by
  rw [noteBusy]
  split
  · simp [hne]
  · simp [hne]

/-- A job that would not send next is not busy, and one that would is. -/
theorem mem_noteBusy_self {l : LaneId} : l ∈ s.noteBusy busy l ↔ s.sendsNext l = true := by
  rw [noteBusy]
  split
  · next h => simp [h]
  · next h => simp [h]

theorem not_send_of_sendsNext {l : LaneId} {lane : Lane Job} {t : Ticket}
    {rest : Program (Outcome Result)} (hl : s.pipeline.lanes.get? l = some lane)
    (hjob : lane.running = some ⟨t, .operate c rest⟩) (hno : ¬s.sendsNext l = true) :
    ∀ m next, rest ≠ .step (.send m) next := by
  rintro m next rfl
  rw [sendsNext] at hno
  rw [hl, Option.bind_some, hjob] at hno
  exact hno rfl

/-- The lane whose job has gone on: what its job knows counts only if it would send
next. -/
theorem guards_self {l : LaneId} {lane : Lane Job} (hl : s.pipeline.lanes.get? l = some lane)
    (hwaiting : ∀ job ∈ lane.waiting, job.work.Obeys groupFirst none)
    (hrunning : ∀ job, lane.running = some job → ∃ k, job.work.Obeys groupFirst k ∧
      ∀ g, k = some g → s.pipeline.groups.contains lane.device g = true) :
    s.Guards (s.noteBusy busy l) l lane := by
  refine ⟨hwaiting, fun job hjob => ?_⟩
  obtain ⟨k, hobeys, hk⟩ := hrunning job hjob
  by_cases hsend : s.sendsNext l = true
  · exact ⟨k, hobeys, hk, fun hout => absurd (mem_noteBusy_self.mpr hsend) hout⟩
  · refine ⟨none, ?_, by simp, fun _ => rfl⟩
    obtain ⟨t, work⟩ := job
    cases work with
    | operate c rest => exact obeys_of_not_send hobeys (not_send_of_sendsNext hl hjob hsend)
    | observe f => trivial
    | clear => trivial

/-- Another lane: what its job knows is about another device, or it knows nothing. -/
theorem Guards.other {l l' : LaneId} {lane : Lane Job} (h : s.Guards busy l' lane) (hne : l' ≠ l)
    (hgroups : l' ∈ busy →
      s'.pipeline.groups.groups lane.device = s.pipeline.groups.groups lane.device) :
    s'.Guards (s'.noteBusy busy l) l' lane := by
  refine ⟨h.waiting, fun job hjob => ?_⟩
  obtain ⟨k, hobeys, hk, hidle⟩ := h.running job hjob
  refine ⟨k, hobeys, fun g hg => ?_, fun hout => hidle fun hin => ?_⟩
  · have hin : l' ∈ busy := by
      by_contra hout
      rw [hidle hout] at hg
      cases hg
    rw [GroupPresence.contains_congr (hgroups hin)]
    exact hk g hg
  · exact hout ((mem_noteBusy_of_ne hne).mpr hin)

/-- A job goes on that no busy job of its device can be disturbed by. -/
theorem Guarded.job (h : s.Guarded busy) {l : LaneId} {lane : Lane Job}
    (hl : s.pipeline.lanes.get? l = some lane)
    (hfree : ∀ l' ∈ busy, l' ≠ l → s.laneDevice? l' ≠ s.laneDevice? l)
    (hkeyed : Keyed s'.store) (running : Option Job)
    (hlanes : s'.pipeline.lanes = s.pipeline.lanes.modify l ({ · with running }))
    (hgroups : ∀ d, d ≠ lane.device →
      s'.pipeline.groups.groups d = s.pipeline.groups.groups d)
    (hrunning : ∀ job, running = some job → ∃ k, job.work.Obeys groupFirst k ∧
      ∀ g, k = some g → s'.pipeline.groups.contains lane.device g = true) :
    s'.Guarded (s'.noteBusy busy l) := by
  refine ⟨hkeyed, fun l' lane' hl' => ?_⟩
  have hmod := Lanes.get?_modify s.pipeline.lanes l l' ({ · with running })
  rw [← hlanes, hl'] at hmod
  by_cases hne : l' = l
  · subst hne
    rw [if_pos rfl, hl] at hmod
    cases Option.some.inj hmod
    exact guards_self hl' (h.lanes l' lane hl).waiting hrunning
  · rw [if_neg (Ne.symm hne)] at hmod
    refine (h.lanes l' lane' hmod.symm).other hne fun hin => hgroups _ fun hd => ?_
    refine hfree l' hin hne ?_
    rw [laneDevice?, laneDevice?, hl, ← hmod, Option.map_some, Option.map_some, hd]

/-- A job goes on. -/
theorem Guarded.jobStep (h : s.Guarded busy) {l : LaneId}
    (hfree : ∀ l' ∈ busy, l' ≠ l → s.laneDevice? l' ≠ s.laneDevice? l) (hstep : JobStep s l s') :
    s'.Guarded (s'.noteBusy busy l) := by
  cases hstep with
  | still =>
      refine ⟨h.keyed, fun l' lane' hl' => ?_⟩
      have hg := h.lanes l' lane' hl'
      by_cases hne : l' = l
      · subst hne
        refine guards_self hl' hg.waiting fun job hjob => ?_
        obtain ⟨k, hobeys, hk, -⟩ := hg.running job hjob
        exact ⟨k, hobeys, hk⟩
      · exact hg.other hne fun _ => rfl
  | finish hl hjob =>
      exact h.job hl hfree h.keyed none rfl (fun _ _ => rfl) (by simp)
  | @answer lane t c e next a s₁ hl hjob hperform =>
      have heff := perform_effects hperform
      obtain ⟨k, hobeys, hk, -⟩ := (h.lanes l _ hl).running _ hjob
      obtain ⟨k', hnext, hk'⟩ := exists_next hperform h.keyed hk
      refine h.job hl hfree (h.keyed.of_groups heff.configured)
        (some ⟨t, .operate c (next a)⟩) (heff.lanes_suspendJob l _) ?_ ?_
      · intro d hd
        show s₁.pipeline.groups.groups d = _
        exact perform_groups_of_ne hd hperform
      · intro job he
        cases he
        exact ⟨k', hobeys.2 _ k' hnext, hk'⟩
  | breakOff hl hjob =>
      exact h.job hl hfree h.keyed none rfl (fun _ _ => rfl) (by simp)
  | observe hl hjob =>
      exact h.job hl hfree h.keyed none rfl (fun _ _ => rfl) (by simp)
  | clear hl hjob =>
      refine h.job hl hfree h.keyed none rfl (fun d hd => ?_) (by simp)
      exact GroupPresence.groups_clearDevice_of_ne hd _

/-! ## Runs -/

/-- Every event keeps the jobs to the discipline. -/
theorem Guarded.after (h : s.Guarded busy) (hplain : s.Plain) (e : Event)
    (hfree : ∀ l ∈ e.lane?, ∀ l' ∈ busy, l' ≠ l → s.laneDevice? l' ≠ s.laneDevice? l) :
    (s.after e).Guarded (s.busyAfter busy e) := by
  have hstep := (step_after hplain e).1
  have hbusy : e.lane? = none → s.busyAfter busy e = busy := by
    intro he
    rw [busyAfter, he]
  cases he : e.lane? with
  | some l =>
      rw [busyAfter, he]
      dsimp only
      cases e with
      | stepJob l' =>
          cases he
          exact h.jobStep (hfree l rfl) (jobStep_stepJob s l)
      | _ => cases he
  | none =>
      rw [hbusy he]
      generalize s.after e = s' at hstep ⊢
      cases hstep with
      | quiet _ hp _ hst _ => exact h.of_lanes hst (by rw [hp]) (by rw [hp])
      | opened _ => exact h.of_lanes (.kept rfl) rfl rfl
      | @submitted r _ _ _ hsubmit _ hst _ =>
          obtain ⟨c, -, -, -, hp⟩ := submit_ok hsubmit
          have hwork := r.work_obeys_groupFirst s.pipeline.policy c
          exact h.enqueue ⟨s.pipeline.tickets, r.work s.pipeline.policy c⟩ hwork hst
            (by rw [hp]; rfl) (by rw [hp]; rfl)
      | attached _ _ _ hp _ hst _ => exact h.of_lanes (.kept (by rw [hst])) (by rw [hp]) (by rw [hp])
      | @detached _ d _ closed _ _ _ hp _ hst _ =>
          have hclear : Guarded { s' with pipeline := ({ s.pipeline with
              attached := s.pipeline.attached.erase d }.enqueue d .clear).2 } busy :=
            h.enqueue ⟨s.pipeline.tickets, .clear⟩ trivial hst rfl rfl
          exact hclear.removeDevice (d := d) rfl (by rw [hp]; rfl) (by rw [hp]; rfl)
      | closed hp _ hst _ => exact h.of_lanes (.kept (by rw [hst])) (by rw [hp]) (by rw [hp])
      | started l => exact h.startJob l
      | job _ => cases he

theorem guarded_new {config : Config} {s₀ : System} (h : System.new config = .ok s₀) :
    s₀.Guarded [] := by
  cases eq_of_new h
  constructor
  · intro d g group hg
    cases hg
  · intro l lane hl
    cases hl

theorem Guarded.go (h : s.Guarded busy) (hplain : s.Plain) (es : List Event)
    (hes : s.Unbroken busy es) : ∃ busy', (s.go es).Guarded busy' := by
  induction es generalizing s busy with
  | nil => exact ⟨busy, h⟩
  | cons e es ih => exact ih (h.after hplain e hes.1) (step_after hplain e).2 hes.2

/-- A job of a device that would hand over a message next. -/
def HandsOver (s : System) (d : DeviceId) (m : Message) : Prop :=
  ∃ l lane t c next, s.pipeline.lanes.get? l = some lane ∧ lane.device = d ∧
    lane.running = some ⟨t, .operate c (.step (.send m) next)⟩

/-- When a flow is handed over to be installed, the group that it depends on is known
to be there. -/
theorem Guarded.dependency_present (h : s.Guarded busy) {m : Message} {f : Flow} {g : GroupId}
    (hm : s.HandsOver d m) (hf : m.installed? = some f) (hg : f.groupDependency = some g) :
    s.pipeline.groups.contains d g = true := by
  obtain ⟨l, lane, t, c, next, hl, rfl, hjob⟩ := hm
  obtain ⟨k, hobeys, hk, -⟩ := (h.lanes l lane hl).running _ hjob
  exact hk g (hobeys.1 f g hf hg)

end Guarded

/-- As long as devices stay attached, a flow is handed over to be installed only when
the group that it depends on is known to be there. -/
theorem dependency_present {config : Config} {s₀ : System} (hnew : System.new config = .ok s₀)
    {es : List Event} (hstays : ∀ d, s₀.StaysAttached d es) {d : DeviceId} {m : Message} {f : Flow}
    {g : GroupId} (hm : (s₀.go es).HandsOver d m) (hf : m.installed? = some f)
    (hg : f.groupDependency = some g) : (s₀.go es).pipeline.groups.contains d g = true := by
  have hunbroken : s₀.Unbroken [] es :=
    unbroken_of_staysAttached (plain_new hnew) (fun d => (queued_new hnew d).single)
      (by simp) hstays
  obtain ⟨busy, hguarded⟩ := (guarded_new hnew).go (plain_new hnew) es hunbroken
  exact hguarded.dependency_present hm hf hg

end Southbound.System
