import Southbound.Proofs.System.Assurance
import Southbound.Proofs.System.Batches
import Southbound.Proofs.System.Unrefused

/-!
# Requests that are refused

A request is refused for the first thing that is wrong with it (`Pipeline.refusal?`): its flow is
in another table than its path names, requests are not accepted, its device is not attached, or it
is a batch without members.  The last is found only when its job goes on, and the others when the
request is made.

Whoever has made the request is told that and nothing else.  Nothing that is done for the request
touches a connection, a record, the store or the devices that are attached
(`System.refusals_change_nothing`).
-/

namespace Southbound

/-- Why a request is refused, if it is. -/
def Pipeline.refusal? (p : Pipeline) (r : Request) : Option Failure :=
  r.misplaced? <|> (if p.shuttingDown then some .shuttingDown else none) <|>
    (if (p.attached.get? r.device).isNone then some (.notConnected r.device) else none) <|>
    r.emptyBatch?

/-- A flow in another table than its path names is refused for that, although requests are not
accepted any more. -/
example : Pipeline.refusal? { shuttingDown := true }
    (.addFlow ⟨⟨"openflow:1"⟩, ⟨1⟩, ⟨"f"⟩⟩ { table := ⟨0⟩ }) =
      some (.invalidTableId ⟨1⟩ ⟨0⟩) := rfl

/-- A request is refused at once, or it becomes a job, and then it can be refused only as a batch
without members. -/
theorem Pipeline.submit_cases (p : Pipeline) (r : Request) :
    (∃ cause, p.submit r = (.error cause, p) ∧ p.refusal? r = some cause ∧
        cause.isRefusal = true) ∨
      ∃ t p', p.submit r = (.ok t, p') ∧ p.refusal? r = r.emptyBatch? := by
  rw [submit, refusal?, r.check_eq]
  cases hmisplaced : r.misplaced? with
  | some cause =>
      exact .inl ⟨cause, rfl, rfl, Request.isRefusal_of_misplaced? hmisplaced⟩
  | none =>
      rw [Option.elim_none, channel]
      cases hclosed : p.shuttingDown with
      | true => exact .inl ⟨.shuttingDown, rfl, rfl, rfl⟩
      | false =>
          cases hattached : p.attached.get? r.device with
          | none => exact .inl ⟨.notConnected r.device, rfl, rfl, rfl⟩
          | some c => exact .inr ⟨_, _, rfl, rfl⟩

namespace System

/-! ## What is left alone -/

/-- The connections, what is recorded of devices, the store and the devices that are attached are
the same. -/
structure Unmoved (s s' : System) : Prop where
  connections : s'.connections = s.connections
  groups : s'.pipeline.groups = s.pipeline.groups
  flows : s'.pipeline.flows = s.pipeline.flows
  store : s'.store = s.store
  attached : s'.pipeline.attached = s.pipeline.attached

theorem Unmoved.refl (s : System) : s.Unmoved s := ⟨rfl, rfl, rfl, rfl, rfl⟩

/-- Events in which a lane starts a job, or something is done for a submission: its job goes on,
if it has one, or whoever has made it looks for the result. -/
inductive Serves (s : System) (n : ErrandId) (submission : Outcome Ticket) : Event → Prop where
  | started (l : LaneId) : Serves s n submission (.startJob l)
  | worked {e : Event} {t : Ticket} :
      submission = .ok t → s.sourceOf? e = some t → Serves s n submission e
  | looked : Serves s n submission (.stepErrand n)

/-- What is told of a result, or only whether it is a success. -/
def told (quiet : Bool) (o : Outcome Result) : Outcome Result :=
  if quiet then o.map fun _ => .done else o

variable {s s' : System} {r : Request} {quiet : Bool} {n : ErrandId} {t : Ticket}
  {submission : Outcome Ticket} {cause : Failure} {o : Outcome Result} {errand : Errand}
  {l : LaneId} {lane : Lane Job} {job : Job}

theorem told_eq_error_iff : told quiet o = .error cause ↔ o = .error cause := by
  cases quiet with
  | false => rfl
  | true => cases o <;> simp [told, Except.map]

/-- To make a request queues a job at most. -/
theorem unmoved_submit (s : System) (r : Request) (quiet : Bool) :
    s.Unmoved (s.after (.submit r quiet)) := by
  rcases s.pipeline.submit_cases r with ⟨cause, hsubmit, -, -⟩ | ⟨t, p', hsubmit, -⟩
  · simp only [after, submit, hsubmit]
    exact ⟨rfl, rfl, rfl, rfl, rfl⟩
  · obtain ⟨c, -, -, -, rfl⟩ := submit_ok hsubmit
    simp only [after, submit, hsubmit]
    exact ⟨rfl, rfl, rfl, rfl, rfl⟩

/-! ## Errands of submissions -/

/-- What the errand of a submission is: it is over with the failure of the submission, or it waits
for the job, or it is over with the result of the job. -/
inductive Pursues (s : System) (submission : Outcome Ticket) (quiet : Bool) : Errand → Prop where
  | refused {cause : Failure} :
      submission = .error cause → Pursues s submission quiet (.over (.error cause))
  | waiting {t : Ticket} : submission = .ok t → Pursues s submission quiet (.job t quiet)
  | done {t : Ticket} {o : Outcome Result} : submission = .ok t → (t, o) ∈ s.results →
      Pursues s submission quiet (.over (told quiet o))

theorem mem_results_of_jobResult? (h : s.jobResult? t = some o) : (t, o) ∈ s.results := by
  obtain ⟨l₁, l₂, hl, -⟩ := List.lookup_eq_some_iff.mp h
  exact hl ▸ List.mem_append_cons_self

/-- Results are kept. -/
theorem results_subset_after (hplain : s.Plain) (e : Event) : s.results ⊆ (s.after e).results := by
  cases he : e.lane? with
  | none => exact (results_after hplain he).symm ▸ List.Subset.refl _
  | some l =>
      cases e with
      | stepJob l =>
          have hstep := jobStep_stepJob s l
          show s.results ⊆ (s.stepJob l).results
          generalize s.stepJob l = s' at hstep ⊢
          cases hstep with
          | still => exact List.Subset.refl _
          | answer _ _ hperform =>
              exact (perform_effects hperform).results.symm ▸ List.Subset.refl _
          | _ => exact List.subset_cons_self _ _
      | _ => cases he

/-- Whoever waits for a job looks for its result. -/
theorem stepErrand_of_job (hn : s.errand? n = some (.job t quiet))
    (hresult : s.jobResult? t = some o) :
    s.stepErrand n = s.setErrand n (.over (told quiet o)) ∧
      (s.stepErrand n).errand? n = some (.over (told quiet o)) := by
  refine stepErrand_eq hn ?_
  rw [advanceErrand?, hresult, Option.map_some, told]

theorem stepErrand_of_over (hn : s.errand? n = some (.over o)) : s.stepErrand n = s := by
  rw [stepErrand, hn, Option.bind_some, advanceErrand?]

/-- When the errand of a submission goes on, nothing else changes. -/
theorem Pursues.stepErrand (h : s.Pursues submission quiet errand)
    (hn : s.errand? n = some errand) :
    s.stepErrand n = s ∨ ∃ t o, submission = .ok t ∧ s.jobResult? t = some o ∧
      s.stepErrand n = s.setErrand n (.over (told quiet o)) ∧
      (s.stepErrand n).errand? n = some (.over (told quiet o)) := by
  cases h with
  | refused _ => exact .inl (stepErrand_of_over hn)
  | done _ _ => exact .inl (stepErrand_of_over hn)
  | @waiting t hsubmission =>
      cases hresult : s.jobResult? t with
      | some o => exact .inr ⟨t, o, hsubmission, hresult, stepErrand_of_job hn hresult⟩
      | none =>
          left
          rw [System.stepErrand, hn, Option.bind_some, advanceErrand?, hresult, Option.map_none]

theorem Pursues.mono (h : s.Pursues submission quiet errand) (hresults : s.results ⊆ s'.results) :
    s'.Pursues submission quiet errand := by
  cases h with
  | refused hsubmission => exact .refused hsubmission
  | waiting hsubmission => exact .waiting hsubmission
  | done hsubmission hmem => exact .done hsubmission (hresults hmem)

/-- An errand, as long as it is there, is that of a submission. -/
structure Kept (s : System) (n : ErrandId) (submission : Outcome Ticket) (quiet : Bool) :
    Prop where
  plain : s.Plain
  numbered : s.Numbered
  begun : n < s.begun
  pursues : ∀ errand, s.errand? n = some errand → s.Pursues submission quiet errand

theorem Kept.after (h : s.Kept n submission quiet) (e : Event) :
    (s.after e).Kept n submission quiet := by
  have hresults := results_subset_after h.plain e
  refine ⟨(step_after h.plain e).2, h.numbered.after e,
    Nat.lt_of_lt_of_le h.begun (begun_le_after h.numbered e), fun errand' herrand' => ?_⟩
  by_cases he : e = .stepErrand n
  · subst he
    replace herrand' : (s.stepErrand n).errand? n = some errand' := herrand'
    replace hresults : s.results ⊆ (s.stepErrand n).results := hresults
    show (s.stepErrand n).Pursues submission quiet errand'
    cases herrand : s.errand? n with
    | none =>
        have hstill : s.stepErrand n = s := by rw [stepErrand, herrand, Option.bind_none]
        rw [hstill, herrand] at herrand'
        cases herrand'
    | some errand =>
        rcases (h.pursues errand herrand).stepErrand herrand with
          hstill | ⟨t, o, hsubmission, hresult, -, hover⟩
        · rw [hstill] at herrand' ⊢
          exact h.pursues errand' herrand'
        · cases hover.symm.trans herrand'
          exact .done hsubmission (hresults (mem_results_of_jobResult? hresult))
  · exact (h.pursues errand' (errand?_after h.numbered h.begun he herrand')).mono hresults

theorem Kept.unmoved_stepErrand (h : s.Kept n submission quiet) : s.Unmoved (s.stepErrand n) := by
  cases herrand : s.errand? n with
  | none =>
      rw [stepErrand, herrand, Option.bind_none]
      exact .refl s
  | some errand =>
      rcases (h.pursues errand herrand).stepErrand herrand with hstill | ⟨_, _, -, -, hset, -⟩
      · exact hstill.symm ▸ .refl s
      · rw [hset]
        exact ⟨rfl, rfl, rfl, rfl, rfl⟩

/-- An errand that is begun is found under its number. -/
theorem errand?_begin (h : s.Numbered) (errand : Errand) :
    (s.begin errand).2.errand? s.begun = some errand :=
  (h.begin errand).errand?_eq_some_iff.mpr List.mem_concat_self

/-- To make a request begins the errand of its submission. -/
theorem exists_errand?_submit (h : s.Numbered) (r : Request) (quiet : Bool) :
    ∃ errand, (s.after (.submit r quiet)).errand? s.begun = some errand ∧
      (s.after (.submit r quiet)).Pursues (s.pipeline.submit r).1 quiet errand := by
  rcases s.pipeline.submit_cases r with ⟨cause, hsubmit, -, -⟩ | ⟨t, p', hsubmit, -⟩
  · simp only [after, submit, hsubmit]
    exact ⟨_, errand?_begin h _, .refused rfl⟩
  · have hnumbered : Numbered { s with pipeline := p' } := ⟨h.distinct, h.bounded⟩
    simp only [after, submit, hsubmit]
    exact ⟨_, errand?_begin hnumbered _, .waiting rfl⟩

theorem kept_submit (hplain : s.Plain) (hnumbered : s.Numbered) (r : Request) (quiet : Bool) :
    (s.after (.submit r quiet)).Kept s.begun (s.pipeline.submit r).1 quiet := by
  refine ⟨(step_after hplain _).2, hnumbered.after _, ?_, fun errand herrand => ?_⟩
  · simp only [after, submit]
    split <;> exact Nat.lt_succ_self _
  · obtain ⟨errand', herrand', hpursues⟩ := exists_errand?_submit hnumbered r quiet
    cases herrand.symm.trans herrand'
    exact hpursues

/-- An errand of a submission is there until it is abandoned or has its result taken. -/
theorem Kept.isSome_after (h : s.Kept n submission quiet) (herrand : s.errand? n = some errand)
    (e : Event) (habandon : e ≠ .abandon n) (htake : e = .takeResults → s.outcome? errand = none) :
    ((s.after e).errand? n).isSome = true := by
  have hpursues := h.pursues errand herrand
  by_cases he : e = .stepErrand n
  · subst he
    show ((s.stepErrand n).errand? n).isSome = true
    rcases hpursues.stepErrand herrand with hstill | ⟨_, _, -, -, -, hover⟩
    · rw [hstill, herrand]
      rfl
    · rw [hover]
      rfl
  · have hreply (p : Promise) : errand ≠ .reply p := by
      rintro rfl
      cases hpursues
    have hmem := h.numbered.mem_errands_after (h.numbered.errand?_eq_some_iff.mp herrand) hreply he
      habandon htake
    rw [(h.numbered.after e).errand?_eq_some_iff.mpr hmem]
    rfl

/-! ## Refusals -/

/-- What becomes of a request that is refused when it is made in one state, as it is seen in a
later one. -/
structure Refuses (s : System) (r : Request) (quiet : Bool) (cause : Failure) (s' : System) :
    Prop where
  isRefusal : cause.isRefusal = true
  submitted : s.Unmoved (s.after (.submit r quiet))
  served : ∀ e, s'.Serves s.begun (s.pipeline.submit r).1 e → s'.Unmoved (s'.after e)
  /-- Whoever has made the request knows that it is refused or will be told next, or the job is
  still to be done. -/
  errand : ∀ errand, s'.errand? s.begun = some errand → errand = .over (.error cause) ∨
    ∃ t, (s.pipeline.submit r).1 = .ok t ∧ errand = .job t quiet ∧
      ((s'.stepErrand s.begun).errand? s.begun = some (.over (.error cause)) ∨
        t ∈ s'.jobTickets r.device)
  /-- Nobody misses it who does not give up. -/
  stays : ∀ e, (s'.errand? s.begun).isSome = true → e ≠ .abandon s.begun →
    ((s'.after e).errand? s.begun).isSome = true ∨
      e = .takeResults ∧ (s.begun, .error cause) ∈ s'.takeResults.1
  /-- When all jobs before it are done, it takes three events. -/
  ends : ∀ l lane job, s'.pipeline.lanes.get? l = some lane → lane.jobs.head? = some job →
    (s.pipeline.submit r).1 = .ok job.ticket → (s'.errand? s.begun).isSome = true →
    (s'.go [.startJob l, .stepJob l, .stepErrand s.begun]).errand? s.begun =
      some (.over (.error cause))

/-- A result of an errand that is over is taken with the others. -/
theorem mem_takeResults (hnumbered : s.Numbered) (hn : s.errand? n = some (.over o)) :
    (n, o) ∈ s.takeResults.1 :=
  List.mem_filterMap.mpr ⟨(n, .over o), hnumbered.errand?_eq_some_iff.mp hn, rfl⟩

/-- Nobody misses a refusal who does not give up. -/
theorem Kept.stays (h : s.Kept n submission quiet)
    (hover : ∀ o, s.errand? n = some (.over o) → o = .error cause) (e : Event)
    (hsome : (s.errand? n).isSome = true) (habandon : e ≠ .abandon n) :
    ((s.after e).errand? n).isSome = true ∨
      e = .takeResults ∧ (n, .error cause) ∈ s.takeResults.1 := by
  obtain ⟨errand, herrand⟩ := Option.isSome_iff_exists.mp hsome
  by_cases htake : e = .takeResults ∧ ∃ o, errand = .over o
  · obtain ⟨rfl, o, rfl⟩ := htake
    exact .inr ⟨rfl, hover o herrand ▸ mem_takeResults h.numbered herrand⟩
  · refine .inl (h.isSome_after herrand e habandon fun he => ?_)
    have hpursues := h.pursues errand herrand
    cases hpursues with
    | waiting _ => rfl
    | _ => exact absurd ⟨he, _, rfl⟩ htake

/-- Whoever waits for a job that can only fail is told so, if the job has its result. -/
theorem Kept.over_stepErrand (h : s.Kept n (.ok t) quiet)
    (hresults : ∀ o, (t, o) ∈ s.results → o = .error cause) (hn : s.errand? n = some errand)
    (hresult : s.jobResult? t = some o) :
    (s.stepErrand n).errand? n = some (.over (.error cause)) := by
  have ho := hresults o (mem_results_of_jobResult? hresult)
  have hpursues := h.pursues errand hn
  cases hpursues with
  | refused heq => cases heq
  | waiting heq =>
      cases heq
      rw [(stepErrand_of_job hn hresult).2, told_eq_error_iff.mpr ho]
  | done heq hmem =>
      cases heq
      rw [stepErrand_of_over hn, hn, told_eq_error_iff.mpr (hresults _ hmem)]

/-! ## Requests that are refused at once -/

theorem Kept.refuses_atOnce {cause : Failure} (hrefused : cause.isRefusal = true)
    (hsubmission : (s.pipeline.submit r).1 = .error cause)
    (h : s'.Kept s.begun (.error cause) quiet) : s.Refuses r quiet cause s' := by
  have hover {errand : Errand} (herrand : s'.errand? s.begun = some errand) :
      errand = .over (.error cause) := by
    have hpursues := h.pursues errand herrand
    cases hpursues with
    | refused heq =>
        cases heq
        rfl
    | waiting heq => cases heq
    | done heq _ => cases heq
  refine ⟨hrefused, unmoved_submit s r quiet, fun e hserves => ?_,
    fun errand herrand => .inl (hover herrand),
    fun e => h.stays (fun o ho => Errand.over.inj (hover ho)) e, fun l lane job _ _ hok => ?_⟩
  · cases hserves with
    | started l => exact ⟨rfl, rfl, rfl, rfl, rfl⟩
    | worked hok _ => cases hsubmission.symm.trans hok
    | looked => exact h.unmoved_stepErrand
  · cases hsubmission.symm.trans hok

/-! ## Batches without members -/

/-- A job of a device that is over before it does anything, and the errand that waits for it. -/
structure Doomed (s : System) (n : ErrandId) (quiet : Bool) (d : DeviceId) (t : Ticket)
    (cause : Failure) : Prop where
  kept : s.Kept n (.ok t) quiet
  jobs : s.pipeline.lanes.AllJobs fun _ job =>
    job.ticket = t → ∃ c, job.work = .operate c (.done (.error cause))
  results : ∀ o, (t, o) ∈ s.results → o = .error cause
  engaged : s.Engaged d t

/-- The job of a batch without members does nothing but end. -/
theorem stepJob_of_refused {c : ConnectionId} (hl : s.pipeline.lanes.get? l = some lane)
    (hjob : lane.running = some ⟨t, .operate c (.done (.error cause))⟩) :
    s.stepJob l = s.finishJob l t (.error cause) := by
  simp only [stepJob, hl, hjob, stepProgram]

/-- A lane starts the first of its jobs, unless it does it already. -/
theorem running_start (h : lane.jobs.head? = some job) : lane.start.running = some job := by
  rw [Lane.jobs] at h
  cases hrunning : lane.running with
  | some running =>
      rw [hrunning] at h
      cases h
      simp [Lane.start, hrunning]
  | none =>
      cases hwaiting : lane.waiting with
      | nil => simp [hrunning, hwaiting] at h
      | cons next waiting =>
          rw [hrunning, hwaiting] at h
          cases h
          rw [Lanes.start_of_canStart hrunning hwaiting]

section Doomed

variable {d : DeviceId} (h : s.Doomed n quiet d t cause)
include h

theorem Doomed.stepJob (hl : s.pipeline.lanes.get? l = some lane) (hjob : lane.running = some job)
    (ht : job.ticket = t) : s.stepJob l = s.finishJob l t (.error cause) := by
  obtain ⟨c, hwork⟩ := h.jobs l lane hl job (Lane.mem_jobs.mpr (.inl hjob)) ht
  obtain ⟨t', work⟩ := job
  cases ht
  cases hwork
  exact stepJob_of_refused hl hjob

theorem Doomed.unmoved {e : Event} (hserves : s.Serves n (.ok t) e) : s.Unmoved (s.after e) := by
  cases hserves with
  | started l => exact ⟨rfl, rfl, rfl, rfl, rfl⟩
  | worked heq hsource =>
      cases heq
      obtain ⟨l, lane, job, rfl, hl, hjob, ht⟩ := sourceOf?_eq_some hsource
      rw [System.after, h.stepJob hl hjob ht]
      exact ⟨rfl, rfl, rfl, rfl, rfl⟩
  | looked => exact h.kept.unmoved_stepErrand

/-- Whoever waits for the job knows that it is refused or will be told next, or it is still to be
done. -/
theorem Doomed.known_or_waits (hn : s.errand? n = some errand) :
    errand = .over (.error cause) ∨ errand = .job t quiet ∧
      ((s.stepErrand n).errand? n = some (.over (.error cause)) ∨ t ∈ s.jobTickets d) := by
  have hpursues := h.kept.pursues errand hn
  cases hpursues with
  | refused heq => cases heq
  | done heq hmem =>
      cases heq
      exact .inl (by rw [told_eq_error_iff.mpr (h.results _ hmem)])
  | waiting heq =>
      cases heq
      refine .inr ⟨rfl, h.engaged.symm.imp_left fun hresult => ?_⟩
      obtain ⟨o, hresult⟩ := Option.isSome_iff_exists.mp hresult
      exact h.kept.over_stepErrand h.results hn hresult

/-- The job is started, ends at once, and then whoever waits for it is told. -/
theorem Doomed.ends (hl : s.pipeline.lanes.get? l = some lane) (hjob : lane.jobs.head? = some job)
    (ht : job.ticket = t) (hn : s.errand? n = some errand) :
    (s.go [.startJob l, .stepJob l, .stepErrand n]).errand? n = some (.over (.error cause)) := by
  obtain ⟨c, hwork⟩ := h.jobs l lane hl job (List.mem_of_head? hjob) ht
  obtain ⟨t', work⟩ := job
  cases ht
  cases hwork
  have hended : (s.startJob l).stepJob l = (s.startJob l).finishJob l t' (.error cause) :=
    stepJob_of_refused (get?_startJob hl) (running_start hjob)
  have hkept : ((s.startJob l).stepJob l).Kept n (.ok t') quiet :=
    (h.kept.after (.startJob l)).after (.stepJob l)
  show (((s.startJob l).stepJob l).stepErrand n).errand? n = _
  rw [hended] at hkept ⊢
  refine hkept.over_stepErrand (fun o hmem => ?_) hn (List.lookup_cons_self ..)
  rcases List.mem_cons.mp hmem with heq | hold
  · cases heq
    rfl
  · exact h.results o hold

end Doomed

theorem Doomed.refuses (h : s'.Doomed s.begun quiet r.device t cause)
    (hsubmission : (s.pipeline.submit r).1 = .ok t) (hcause : cause.isRefusal = true) :
    s.Refuses r quiet cause s' := by
  refine ⟨hcause, unmoved_submit s r quiet, fun e hserves => ?_, fun errand herrand => ?_,
    fun e => h.kept.stays (fun o ho => ?_) e, fun l lane job hl hjob hok hsome => ?_⟩
  · exact h.unmoved (hsubmission ▸ hserves)
  · exact (h.known_or_waits herrand).imp_right fun hwaits => ⟨t, hsubmission, hwaits⟩
  · rcases h.known_or_waits ho with hover | ⟨hjob, -⟩
    · exact Errand.over.inj hover
    · cases hjob
  · obtain ⟨errand, herrand⟩ := Option.isSome_iff_exists.mp hsome
    exact h.ends hl hjob (Except.ok.inj (hok.symm.trans hsubmission)) herrand

/-- A request that becomes a job is among those that were accepted. -/
theorem mem_requestedIn_submit {es es' : List Event} {p : Pipeline}
    (hsubmit : (s.go es).pipeline.submit r = (.ok t, p)) :
    (t, r) ∈ s.requestedIn (es ++ .submit r quiet :: es') := by
  rw [requestedIn_append, requestedIn, requested?, hsubmit]
  exact List.mem_append_right _ (List.mem_append_left _ (.head _))

section Runs

variable {config : Config} {s₀ : System} (hnew : System.new config = .ok s₀)
include hnew

theorem kept_go (es es' : List Event) (r : Request) (quiet : Bool) :
    (s₀.go (es ++ .submit r quiet :: es')).Kept (s₀.go es).begun
      ((s₀.go es).pipeline.submit r).1 quiet := by
  rw [go_append, go_cons]
  exact inv_go (Kept · _ _ quiet) (fun _ e h => h.after e)
    (kept_submit ((served_new hnew).go es).plain (numbered_go hnew es) r quiet) es'

/-- Whoever made a request is told that it is refused only if it is, if no codec refuses messages
so. -/
theorem refusal?_of_over {es es' : List Event}
    (hcodecs : ∀ d codec n, .openConnection d codec n ∈ es ++ .submit r quiet :: es' →
      codec.Unrefusing)
    (herrand : (s₀.go (es ++ .submit r quiet :: es')).errand? (s₀.go es).begun =
      some (.over (.error cause))) (hcause : cause.isRefusal = true) :
    (s₀.go es).pipeline.refusal? r = some cause := by
  have hpursues := (kept_go hnew es es' r quiet).pursues _ herrand
  rcases (s₀.go es).pipeline.submit_cases r with
    ⟨cause', hsubmit, hrefusal, -⟩ | ⟨t, p, hsubmit, hrefusal⟩
  · rw [hsubmit] at hpursues
    generalize herr : (.over (.error cause) : Errand) = errand at hpursues
    cases hpursues with
    | refused heq =>
        cases heq
        cases herr
        exact hrefusal
    | waiting heq => cases heq
    | done heq _ => cases heq
  · rw [hsubmit] at hpursues
    generalize herr : (.over (.error cause) : Errand) = errand at hpursues
    cases hpursues with
    | refused heq => cases heq
    | waiting _ => cases herr
    | @done t' o heq hmem =>
        cases heq
        have ho : o = .error cause := told_eq_error_iff.mp (Errand.over.inj herr).symm
        have hjudged := judged_go hnew fun _ : True => hcodecs
        have hdue := hjudged.ended t o hmem r (mem_requestedIn_submit hsubmit)
        rw [Request.Due] at hdue
        rw [hrefusal]
        split at hdue
        · next hempty =>
            cases ho.symm.trans hdue
            exact hempty
        · cases hcause.symm.trans (hdue trivial cause ho)

/-- A request that was accepted and is a batch without members is doomed. -/
theorem doomed_go {es es' : List Event} {p : Pipeline}
    (hsubmit : (s₀.go es).pipeline.submit r = (.ok t, p)) (hempty : r.emptyBatch? = some cause) :
    (s₀.go (es ++ .submit r quiet :: es')).Doomed (s₀.go es).begun quiet r.device t cause := by
  have hrequested : (t, r) ∈ s₀.requestedIn (es ++ .submit r quiet :: es') :=
    mem_requestedIn_submit hsubmit
  have hjudged : (s₀.go (es ++ .submit r quiet :: es')).Judged False
      (s₀.requestedIn (es ++ .submit r quiet :: es')) := judged_go hnew nofun
  have hserved := (served_new hnew).go es
  have haccepted : (s₀.go es).accepted? r.device (.submit r quiet) = some t := by
    rw [accepted?, if_pos rfl, hsubmit]
    rfl
  constructor
  · have hkept := kept_go hnew es es' r quiet
    rwa [hsubmit] at hkept
  · refine hjudged.jobs.mono fun d job hjob ht => ?_
    have hahead := hjob r (ht ▸ hrequested)
    rwa [Request.Ahead, hempty] at hahead
  · intro o hmem
    have hdue := hjudged.ended t o hmem r hrequested
    rwa [Request.Due, hempty] at hdue
  · rw [go_append, go_cons]
    exact (engaged_submit hserved haccepted).go (hserved.after _) es'

/-- For every request, in every state: the first thing that is wrong with it decides whether it is
refused, and then the request changes nothing. -/
theorem refusals_change_nothing (es es' : List Event) (r : Request) (quiet : Bool) :
    ((s₀.go (es ++ [.submit r quiet])).errand? (s₀.go es).begun).isSome = true ∧
    (∀ cause, (s₀.go es).pipeline.refusal? r = some cause →
      (s₀.go es).Refuses r quiet cause (s₀.go (es ++ .submit r quiet :: es'))) ∧
    ((∀ d codec n, .openConnection d codec n ∈ es ++ .submit r quiet :: es' →
        codec.Unrefusing) →
      ∀ cause, cause.isRefusal = true →
        (s₀.go (es ++ .submit r quiet :: es')).errand? (s₀.go es).begun =
          some (.over (.error cause)) →
        (s₀.go es).pipeline.refusal? r = some cause) := by
  refine ⟨?_, fun cause hrefusal => ?_, fun hcodecs cause hcause herrand =>
    refusal?_of_over hnew hcodecs herrand hcause⟩
  · rw [go_concat]
    obtain ⟨errand, herrand, -⟩ := exists_errand?_submit (numbered_go hnew es) r quiet
    rw [herrand]
    rfl
  · have hkept := kept_go hnew es es' r quiet
    rcases (s₀.go es).pipeline.submit_cases r with
      ⟨cause', hsubmit, hrefusal', hcause⟩ | ⟨t, p, hsubmit, hrefusal'⟩
    · cases hrefusal.symm.trans hrefusal'
      rw [hsubmit] at hkept
      exact hkept.refuses_atOnce hcause (by rw [hsubmit])
    · have hempty : r.emptyBatch? = some cause := hrefusal'.symm.trans hrefusal
      exact (doomed_go hnew hsubmit hempty).refuses (by rw [hsubmit])
        (Request.isRefusal_of_emptyBatch? hempty)

end Runs

/-! ## An empty batch -/

namespace EmptyBatch

def device : DeviceId := ⟨"openflow:1"⟩

def request : Request := .addGroups device [] false

def refusal : Failure := .invalidRequest "Batch for add-groups-batch has no entries"

/-- The device is attached. -/
def before : List Event := [.openConnection device .json 64, .attach 0]

/-- The job of the request is done, and whoever has made it looks for the result. -/
def later : List Event := [.startJob 0, .stepJob 0, .stepErrand 1]

end EmptyBatch

theorem refusals_change_nothing_of_emptyBatch :
    ∃ s₀, System.new {} = .ok s₀ ∧
      (s₀.go EmptyBatch.before).Refuses EmptyBatch.request false EmptyBatch.refusal
        (s₀.go (EmptyBatch.before ++ [.submit EmptyBatch.request false])) ∧
      (s₀.go (EmptyBatch.before ++ .submit EmptyBatch.request false ::
        EmptyBatch.later)).errand? 1 = some (.over (.error EmptyBatch.refusal)) ∧
      (s₀.go EmptyBatch.before).pipeline.refusal? EmptyBatch.request =
        some EmptyBatch.refusal := by
  obtain ⟨s₀, hnew, hbegun, hrefusal, hover⟩ : ∃ s₀, System.new {} = .ok s₀ ∧
      (s₀.go EmptyBatch.before).begun = 1 ∧
      (s₀.go EmptyBatch.before).pipeline.refusal? EmptyBatch.request =
        some EmptyBatch.refusal ∧
      (s₀.go (EmptyBatch.before ++ .submit EmptyBatch.request false ::
        EmptyBatch.later)).errand? 1 = some (.over (.error EmptyBatch.refusal)) :=
    ⟨_, rfl, rfl, rfl, rfl⟩
  have hcodecs (d : DeviceId) (codec : Codec) (n : Nat)
      (hmem : .openConnection d codec n ∈
        EmptyBatch.before ++ .submit EmptyBatch.request false :: EmptyBatch.later) :
      codec.Unrefusing := by
    obtain ⟨-, rfl, -⟩ : d = EmptyBatch.device ∧ codec = .json ∧ n = 64 := by
      simpa [EmptyBatch.before, EmptyBatch.later] using hmem
    exact Codec.unrefusing_json
  obtain ⟨-, hrefuses, -⟩ :=
    refusals_change_nothing hnew EmptyBatch.before [] EmptyBatch.request false
  obtain ⟨-, -, hconverse⟩ :=
    refusals_change_nothing hnew EmptyBatch.before EmptyBatch.later EmptyBatch.request false
  refine ⟨s₀, hnew, hrefuses _ hrefusal, hover, hconverse hcodecs _ rfl ?_⟩
  rw [hbegun]
  exact hover

end System

end Southbound
