import Southbound.Proofs.System.Drain

/-!
# Sessions and the records of later sessions

A device can be attached again while a session of it that has ended still has jobs, the
last of which clears the device.  It clears also what was recorded in the new session.

So a record that a job of the session of a device makes lasts, whatever follows, exactly
if all jobs of earlier sessions are done (`System.record_lasts_iff`).  By lasting is meant
that the record is there as long as the device stays attached and no operation that was
accepted later removes or replaces it.
-/

namespace Southbound

/-- A lane that takes jobs is the last, and the others were released. -/
theorem Orderly.of_open {ι : Type} {pre post : List (Lane ι)} {l : Lane ι}
    (h : Orderly (pre ++ l :: post)) (hl : l.released = false) :
    post = [] ∧ ∀ l' ∈ pre, l'.released = true := by
  rw [Orderly, List.pairwise_append, List.pairwise_cons] at h
  obtain ⟨-, ⟨hpost, -⟩, hpre⟩ := h
  refine ⟨List.eq_nil_iff_forall_not_mem.mpr fun l' hl' => ?_, fun l' hl' => ?_⟩
  · cases hl.symm.trans (hpost l' hl')
  · exact hpre l' hl' l (.head _)

namespace System

/-- All jobs of earlier sessions of a device are done. -/
def EarlierDone (s : System) (d : DeviceId) : Prop :=
  ∀ lane ∈ s.pipeline.lanes.ofDevice d, lane.released = true → lane.jobs = []

instance (s : System) (d : DeviceId) : Decidable (s.EarlierDone d) :=
  inferInstanceAs (Decidable (∀ lane ∈ _, _ → _ = []))

variable {s s' : System} {d : DeviceId} {c : ConnectionId} {r : Record} {l : LaneId}
  {lane : Lane Job} {t : Ticket} {job : Job}

/-! ## The step that records -/

/-- A job makes a record, and what is left of it spares the record. -/
structure RecordStep (s : System) (l : LaneId) (lane : Lane Job) (r : Record) (q₀ : Effect)
    (f : Lane Job → Lane Job) (s' : System) : Prop where
  has : s'.Has lane.device r
  lanes : s'.pipeline.lanes = s.pipeline.lanes.modify l f
  device : ∀ lane, (f lane).device = lane.device
  jobs : ∀ job ∈ (f lane).jobs, job ∈ lane.waiting ∨
    ∃ c rest, job.work = .operate c rest ∧ rest.Obeys (sparing q₀) ()

theorem exists_recordStep (hlasting : s.Lasting lane.device)
    (hl : s.pipeline.lanes.get? l = some lane) (hjob : lane.running = some job)
    (hr : s.recordedBy? lane.device job.work = some r) :
    ∃ key q₀ f, q₀.record? key = some r ∧ RecordStep s l lane r q₀ f (s.stepJob l) := by
  obtain ⟨t, work⟩ := job
  have hlane : lane ∈ s.pipeline.lanes.ofDevice lane.device :=
    Lanes.mem_ofDevice.mpr ⟨List.mem_of_getElem? hl, rfl⟩
  cases work with
  | clear => cases hr
  | observe f =>
      refine ⟨s.pipeline.flows.key, .recordFlow f (s.pipeline.flows.observe lane.device f).1,
        Lane.finish, hr, ?_, ?_, fun _ => rfl, fun job hmem => .inl hmem⟩
      · cases hr
        simp only [stepJob, hl, hjob]
        exact get?_observe ..
      · simp [stepJob, hl, hjob, finishJob]
  | operate c rest =>
      cases rest with
      | done result => cases hr
      | step q next =>
          obtain ⟨a, s₁, hperform, hhas⟩ := s.has_of_record? lane.device c hr
          obtain ⟨hstep, -⟩ := stepJob_answer hl hjob hperform
          obtain ⟨done, hobeys⟩ := hlasting lane hlane _ (Lane.mem_jobs.mpr (.inl hjob))
          have hspares : (next a).Obeys (sparing q) () :=
            Program.Obeys.spares (hobeys.2 a (fun e => done e ∨ e = q) fun _ => id) (.inr rfl)
          refine ⟨s.pipeline.flows.key, q,
            fun lane => { lane with running := some ⟨t, .operate c (next a)⟩ }, hr, ?_, ?_,
            fun _ => rfl, ?_⟩
          · rw [hstep]
            exact hhas
          · rw [hstep]
            exact (perform_effects hperform).lanes_suspendJob l _
          · intro job hmem
            cases hmem with
            | head => exact .inr ⟨c, next a, rfl, hspares⟩
            | tail _ hwaiting => exact .inl hwaiting

theorem attached_stepJob (hplain : s.Plain) (l : LaneId) :
    (s.stepJob l).pipeline.attached = s.pipeline.attached :=
  (attached_after_of_not_administers (e := .stepJob l) hplain rfl).1

/-! ## The lanes of the device -/

section Lanes

variable (hserved : s.Served) (hascending : s.Ascending lane.device)
  (hl : s.pipeline.lanes.get? l = some lane) (hopen : lane.released = false)
include hserved hl hopen

/-- The lane that takes jobs is the last of its device. -/
theorem exists_ofDevice_eq : ∃ pre, s.pipeline.lanes.ofDevice lane.device = pre ++ [lane] ∧
    ∀ lane' ∈ pre, lane'.released = true := by
  have hlane : lane ∈ s.pipeline.lanes.ofDevice lane.device :=
    Lanes.mem_ofDevice.mpr ⟨List.mem_of_getElem? hl, rfl⟩
  obtain ⟨pre, post, he⟩ := List.append_of_mem hlane
  have horderly := (hserved.session lane.device).orderly
  rw [he] at horderly
  obtain ⟨rfl, hpre⟩ := horderly.of_open hopen
  exact ⟨pre, he, hpre⟩

include hascending

/-- The jobs of earlier sessions were accepted before the one that is being done, and the
others of its session after it. -/
theorem tickets_around (hjob : lane.running = some job) :
    (∀ lane' ∈ s.pipeline.lanes.ofDevice lane.device, lane'.released = true →
      ∀ t ∈ lane'.jobs.map Job.ticket, t < job.ticket) ∧
      ∀ job' ∈ lane.waiting, job.ticket < job'.ticket := by
  obtain ⟨pre, he, hpre⟩ := exists_ofDevice_eq hserved hl hopen
  have hpairwise := hascending.ascending
  rw [jobTickets, Lanes.jobsOf, he, List.flatMap_append, List.flatMap_singleton,
    Lane.jobs_of_running hjob, List.map_append, List.pairwise_append] at hpairwise
  obtain ⟨-, hlast, hcross⟩ := hpairwise
  constructor
  · intro lane' hlane' hreleased t ht
    rw [he] at hlane'
    cases List.mem_append.mp hlane' with
    | inl hmem =>
        refine hcross t ?_ job.ticket (.head _)
        rw [List.map_flatMap]
        exact List.mem_flatMap.mpr ⟨lane', hmem, ht⟩
    | inr hmem =>
        rw [List.mem_singleton.mp hmem, hopen] at hreleased
        cases hreleased
  · intro job' hjob'
    exact (List.pairwise_cons.mp hlast).1 _ (List.mem_map_of_mem hjob')

/-! ## Records that last -/

/-- If all jobs of earlier sessions are done, the record lasts. -/
theorem keeps_of_earlierDone (hjob : lane.running = some job) (hdone : s.EarlierDone lane.device)
    {q₀ : Effect} {f : Lane Job → Lane Job} (hstep : RecordStep s l lane r q₀ f (s.stepJob l)) :
    (s.stepJob l).Keeps lane.device r q₀ job.ticket := by
  obtain ⟨pre, he, hpre⟩ := exists_ofDevice_eq hserved hl hopen
  have hlane : lane ∈ s.pipeline.lanes.ofDevice lane.device := he ▸ List.mem_concat_self
  refine ⟨?_, hstep.has, ?_, ?_⟩
  · rw [attached_stepJob hserved.plain]
    exact (hserved.session lane.device).attached lane hlane hopen
  · have hticket : job.ticket ∈ s.jobTickets lane.device := by
      refine List.mem_map_of_mem (List.mem_flatMap.mpr ⟨lane, hlane, ?_⟩)
      exact Lane.mem_jobs.mpr (.inl hjob)
    have hle := (deviceStep_job (d := lane.device) (jobStep_stepJob s l)).tickets_le
    exact Nat.lt_of_lt_of_le (hascending.bounded _ hticket) hle
  · have hlater := (tickets_around hserved hascending hl hopen hjob).2
    rw [hstep.lanes]
    rcases Lanes.ofDevice_modify s.pipeline.lanes lane.device l hstep.device with
      ⟨pre', lane', post, hl', -, he', hmod⟩ | ⟨hne, -⟩
    · cases hl.symm.trans hl'
      rw [hmod]
      have horderly := (hserved.session lane.device).orderly
      rw [he'] at horderly
      obtain ⟨rfl, hpre'⟩ := horderly.of_open hopen
      refine forall_mem_concat (fun lane' hlane' job' hjob' => ?_) fun job' hjob' => ?_
      · have hmem : lane' ∈ s.pipeline.lanes.ofDevice lane.device :=
          he' ▸ List.mem_append_left _ hlane'
        rw [hdone lane' hmem (hpre' lane' hlane')] at hjob'
        cases hjob'
      · exact (hstep.jobs job' hjob').imp_left (hlater job')
    · exact absurd rfl (hne lane hl)

end Lanes

section Runs

variable {config : Config} {s₀ : System} (hnew : System.new config = .ok s₀)
include hnew

theorem lasting_ascending_go (es : List Event) (d : DeviceId) :
    (s₀.go es).Lasting d ∧ (s₀.go es).Ascending d := by
  have hstep (s : System) (e : Event) (h : s.Served ∧ s.Lasting d ∧ s.Ascending d) :
      (s.after e).Served ∧ (s.after e).Lasting d ∧ (s.after e).Ascending d :=
    ⟨h.1.after e, h.2.1.after h.1 e, h.2.2.after h.1 e⟩
  exact (inv_go (fun s => s.Served ∧ s.Lasting d ∧ s.Ascending d) hstep
    ⟨served_new hnew, lasting_new hnew d, ascending_new hnew d⟩ es).2

/-- A record that a job of the session of a device makes lasts exactly if all jobs of
earlier sessions are done: then it is there as long as the device stays attached and no
operation that was accepted later removes or replaces it. -/
theorem record_lasts_iff (es : List Event) (hl : (s₀.go es).pipeline.lanes.get? l = some lane)
    (hopen : lane.released = false) (hjob : lane.running = some job)
    (hr : (s₀.go es).recordedBy? lane.device job.work = some r) :
    (∀ later, (s₀.go (es ++ [.stepJob l])).StaysAttached lane.device later →
        (s₀.go (es ++ [.stepJob l])).Undisturbed lane.device r job.ticket later →
        (s₀.go (es ++ .stepJob l :: later)).Has lane.device r) ↔
      (s₀.go es).EarlierDone lane.device := by
  have hserved := (served_new hnew).go es
  obtain ⟨hlasting, hascending⟩ := lasting_ascending_go hnew es lane.device
  simp only [go_append, go_cons, go_nil]
  generalize s₀.go es = s at *
  have hserved' : (s.stepJob l).Served := hserved.after (.stepJob l)
  obtain ⟨key, q₀, f, hq₀, hstep⟩ := exists_recordStep hlasting hl hjob hr
  constructor
  · intro hlasts lane' hlane' hreleased
    by_contra hjobs
    -- The lane that was released can go on alone until it has cleared the device.
    obtain ⟨hmem, hd⟩ := Lanes.mem_ofDevice.mp hlane'
    obtain ⟨l', hl'⟩ := List.mem_iff_getElem?.mp hmem
    have hne : l ≠ l' := by
      rintro rfl
      cases hl.symm.trans hl'
      cases hopen.symm.trans hreleased
    have hl'' : (s.stepJob l).pipeline.lanes.get? l' = some lane' := by
      rw [hstep.lanes, Lanes.get?_modify, if_neg hne]
      exact hl'
    obtain ⟨later, honly, hblank⟩ := exists_blank hserved' hl'' hreleased hjobs
    have hearlier := (tickets_around hserved hascending hl hopen hjob).1 lane' hlane' hreleased
    have hundisturbed : (s.stepJob l).Undisturbed lane.device r job.ticket later :=
      honly.undisturbed hl'' fun t ht => Nat.le_of_lt (hearlier t ht)
    have hhas := hlasts later (honly.staysAttached hserved'.plain) hundisturbed
    rw [hd] at hblank
    exact not_has_of_blank hblank hhas
  · intro hdone later hstays hundisturbed
    have hkeeps := keeps_of_earlierDone hserved hascending hl hopen hjob hdone hstep
    exact hkeeps.go hserved' hq₀ later hstays hundisturbed

end Runs

/-! ## A device that is attached again -/

namespace Reattached

/-- The device. -/
def device : DeviceId := ⟨"openflow:1"⟩

/-- The device is detached while a barrier waits in its lane. -/
def detached : List Event :=
  [.openConnection device (.single .barrierReply) 64,
    .openConnection device (.single .barrierReply) 64, .attach 0, .submit (.barrier device) false,
    .detach device]

/-- The lane that was released does its jobs. -/
def earlier : List Event :=
  [.startJob 0, .stepJob 0, .stepJob 0, .stepJob 0, .startJob 0, .stepJob 0]

/-- The device is attached again, and takes a group. -/
def taken : List Event :=
  [.attach 1, .submit (.addGroup device { id := ⟨7⟩ }) false, .startJob 1, .stepJob 1,
    .writer 1, .writer 1, .receive 1 [], .stepJob 1]

/-- The group is recorded, and the operation ends. -/
def recorded : List Event := [.stepJob 1, .stepJob 1]

end Reattached

theorem record_lasts_of_reattached :
    ∃ s₀, System.new {} = .ok s₀ ∧
      let s := s₀.go (Reattached.detached ++ Reattached.earlier ++ Reattached.taken)
      ∀ later, (s.after (.stepJob 1)).StaysAttached Reattached.device later →
        (s.after (.stepJob 1)).Undisturbed Reattached.device (.group ⟨7⟩) 2 later →
        (s.go (.stepJob 1 :: later)).Has Reattached.device (.group ⟨7⟩) := by
  let s₀ := start
  let es := Reattached.detached ++ Reattached.earlier ++ Reattached.taken
  have hnew : System.new {} = .ok s₀ := rfl
  have hdone : (s₀.go es).EarlierDone Reattached.device := by decide
  have hlane : ((s₀.go es).pipeline.lanes.get? 1).map
      (fun lane => (lane.device, lane.released, lane.running.map Job.ticket)) =
      some (Reattached.device, false, some 2) := by decide
  have hrecord : (((s₀.go es).pipeline.lanes.get? 1).bind Lane.running).bind
      (fun job => (s₀.go es).recordedBy? Reattached.device job.work) = some (.group ⟨7⟩) := by
    decide
  refine ⟨s₀, hnew, ?_⟩
  show ∀ later, ((s₀.go es).after (.stepJob 1)).StaysAttached Reattached.device later →
    ((s₀.go es).after (.stepJob 1)).Undisturbed Reattached.device (.group ⟨7⟩) 2 later →
    ((s₀.go es).go (.stepJob 1 :: later)).Has Reattached.device (.group ⟨7⟩)
  -- From here on the states are not to be computed.
  generalize s₀ = s at *
  generalize es = es at *
  obtain ⟨lane, hl, hview⟩ := Option.map_eq_some_iff.mp hlane
  obtain ⟨job, hjob, hr⟩ := Option.bind_eq_some_iff.mp hrecord
  rw [hl, Option.bind_some] at hjob
  simp only [hjob, Option.map_some, Prod.mk.injEq, Option.some.injEq] at hview
  obtain ⟨hdevice, hopen, hticket⟩ := hview
  rw [← hdevice] at hr hdone ⊢
  have hlasts := (record_lasts_iff hnew es hl hopen hjob hr).mpr hdone
  simp only [go_append, go_cons, go_nil, hticket] at hlasts
  exact hlasts

/-- A group that an operation of the new session has recorded is erased when the job of an
earlier session clears the device. -/
theorem record_erased_by_earlier_session :
    ∃ s₀, System.new {} = .ok s₀ ∧
      let s := s₀.go (Reattached.detached ++ Reattached.taken ++ Reattached.recorded)
      s.pipeline.attached.get? Reattached.device = some 1 ∧ s.jobResult? 2 = some (.ok .done) ∧
        s.Has Reattached.device (.group ⟨7⟩) ∧
        s.StaysAttached Reattached.device Reattached.earlier ∧
        s.Undisturbed Reattached.device (.group ⟨7⟩) 2 Reattached.earlier ∧
        ¬(s.go Reattached.earlier).Has Reattached.device (.group ⟨7⟩) := by
  refine ⟨_, rfl, by decide, rfl, by decide, by decide, by decide, by decide⟩

end System

end Southbound
