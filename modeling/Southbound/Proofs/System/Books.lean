import Mathlib.Data.List.Nodup
import Southbound.Proofs.System.Answers

/-!
# Requests and what has become of their jobs

Each request that is accepted gets a number, and its job ends with a result under that
number.  A request whose job has succeeded is fulfilled: each of its messages was sent by
the job to the device of the request, and was confirmed by the device or withdrawn from a
batch (`System.fulfilled_go`).
-/

namespace Southbound

/-- A job has a number that was given.  If it is the number of a request, the job is not for
the end of a device, and one without a program is for a request that sends nothing. -/
def Job.Booked (tickets : Ticket) (requested : List (Ticket × Request)) (job : Job) : Prop :=
  job.ticket < tickets ∧ ∀ r, (job.ticket, r) ∈ requested →
    job.work ≠ .clear ∧ ∀ f, job.work = .observe f → r.messages = []

namespace System

variable {s s' : System} {c : ConnectionId} {e : Event} {t : Ticket} {p : Promise} {m : Message}
  {r : Request} {requested requested' : List (Ticket × Request)}
  {asked asked' : List (Ticket × Promise × Message)}

/-! ## What requests speak for -/

/-- A job has sent a message to the device of its request, and the device has confirmed it, or
it was withdrawn from a batch. -/
def Over (s : System) (asked : List (Ticket × Promise × Message)) (t : Ticket) (r : Request)
    (p : Promise) (m : Message) : Prop :=
  (t, p, m) ∈ asked ∧ s.deviceOf? p.connection = some r.device ∧
    (s.Confirmed p m ∨ r.passesOver m = true ∧ s.Withdrawn p)

theorem Over.after (hserved : s.Served) (h : s.Over asked t r p m) (e : Event) :
    (s.after e).Over (asked ++ (s.asked? e).toList) t r p m := by
  obtain ⟨hasked, hd, hover⟩ := h
  refine ⟨List.mem_append_left _ hasked, deviceOf?_after hserved.plain e hd, ?_⟩
  exact hover.imp (·.after hserved e) (.imp_right (·.after hserved e))

/-- Numbers are given once, and a request whose job has succeeded is fulfilled. -/
structure Bookkept (s : System) (requested : List (Ticket × Request))
    (asked : List (Ticket × Promise × Message)) : Prop where
  numbered : ∀ a ∈ requested, a.1 < s.pipeline.tickets
  unique : (requested.map Prod.fst).Nodup
  jobs : s.pipeline.lanes.AllJobs fun _ job => job.Booked s.pipeline.tickets requested
  ended : ∀ a ∈ s.results, a.1 < s.pipeline.tickets
  fulfilled : ∀ t v, (t, .ok v) ∈ s.results → ∀ r, (t, r) ∈ requested →
    r.Fulfilled v (s.Over asked t r)

/-- A request that sends nothing has no more to speak for. -/
theorem fulfilled_descriptor {descriptor : FlowDescriptor} {done : Promise → Message → Prop}
    (h : r.messages = []) : r.Fulfilled (.descriptor descriptor) done :=
  ⟨by simp [h], fun _ hv => nomatch hv⟩

theorem Bookkept.submit (hserved : s.Served) (h : s.Bookkept requested asked) {quiet : Bool}
    {pipeline : Pipeline} (hsubmit : s.pipeline.submit r = (.ok t, pipeline)) :
    (s.after (.submit r quiet)).Bookkept (requested ++ [(t, r)]) asked := by
  have hp : (s.after (.submit r quiet)).pipeline = pipeline := after_submit hsubmit
  have hresults : (s.after (.submit r quiet)).results = s.results :=
    results_after hserved.plain rfl
  have hover {p : Promise} {m : Message} {t' : Ticket} {r' : Request}
      (hover : s.Over asked t' r' p m) : (s.after (.submit r quiet)).Over asked t' r' p m := by
    have hnone : s.asked? (.submit r quiet) = none := rfl
    have := hover.after hserved (.submit r quiet)
    rwa [hnone, Option.toList_none, List.append_nil] at this
  obtain ⟨c, -, -, rfl, rfl⟩ := submit_ok hsubmit
  have htickets : (s.after (.submit r quiet)).pipeline.tickets = s.pipeline.tickets + 1 := by
    rw [hp]
    rfl
  refine ⟨fun a ha => ?_, ?_, ?_, fun a ha => ?_, fun t v ht r' hr' => ?_⟩
  · rw [htickets]
    rcases List.mem_append.mp ha with hold | hnew
    · exact Nat.lt_succ_of_lt (h.numbered a hold)
    · cases List.mem_singleton.mp hnew
      exact Nat.lt_succ_self _
  · rw [List.map_append, List.map_singleton]
    refine List.nodup_append.mpr ⟨h.unique, by simp, fun t ht t' ht' => ?_⟩
    obtain ⟨a, ha, rfl⟩ := List.mem_map.mp ht
    rw [List.mem_singleton.mp ht']
    exact Nat.ne_of_lt (h.numbered a ha)
  · rw [htickets, hp]
    refine Lanes.AllJobs.enqueue (h.jobs.mono fun _ job hjob => ⟨Nat.lt_succ_of_lt hjob.1,
      fun r' hr' => hjob.2 r' (mem_of_lt_ticket hjob.1 hr')⟩) ⟨Nat.lt_succ_self _, fun r' hr' => ?_⟩
    rcases List.mem_append.mp hr' with hr' | hr'
    · exact absurd (h.numbered _ hr') (Nat.lt_irrefl _)
    · cases List.mem_singleton.mp hr'
      refine ⟨r.work_ne_clear _ c, fun f hf => ?_⟩
      cases r with
      | observe d f => rfl
      | _ => cases hf
  · rw [htickets]
    exact Nat.lt_succ_of_lt (h.ended a (hresults ▸ ha))
  · rw [hresults] at ht
    exact (h.fulfilled t v ht r' (mem_of_lt_ticket (h.ended _ ht) hr')).mono fun _ _ => hover

/-- What an event that accepts no request has to leave alone. -/
theorem Bookkept.of_results (h : s.Bookkept requested asked)
    (hover : ∀ t r p m, s.Over asked t r p m → s'.Over asked' t r p m)
    (htickets : s.pipeline.tickets ≤ s'.pipeline.tickets)
    (hjobs : s'.pipeline.lanes.AllJobs fun _ job => job.Booked s'.pipeline.tickets requested)
    (hresults : ∀ t result, (t, result) ∈ s'.results → (t, result) ∈ s.results ∨
      t < s.pipeline.tickets ∧ ∀ v, result = .ok v → ∀ r, (t, r) ∈ requested →
        r.Fulfilled v (s.Over asked t r)) : s'.Bookkept requested asked' := by
  refine ⟨fun a ha => Nat.lt_of_lt_of_le (h.numbered a ha) htickets, h.unique, hjobs,
    fun a ha => ?_, fun t v ht r hr => ?_⟩
  · rcases hresults a.1 a.2 ha with hold | ⟨hlt, -⟩
    · exact Nat.lt_of_lt_of_le (h.ended a hold) htickets
    · exact Nat.lt_of_lt_of_le hlt htickets
  · rcases hresults t _ ht with hold | ⟨-, hnew⟩
    · exact (h.fulfilled t v hold r hr).mono fun _ _ => hover t r _ _
    · exact (hnew v rfl r hr).mono fun _ _ => hover t r _ _

/-- What a running job may end with: it has a number, and success is that of its request. -/
theorem Bookkept.ending (h : s.Bookkept requested asked) {l : LaneId} {lane : Lane Job} {job : Job}
    {result : Outcome Result} (hl : s.pipeline.lanes.get? l = some lane)
    (hrunning : lane.running = some job)
    (hnew : ∀ v, result = .ok v → ∀ r, (job.ticket, r) ∈ requested →
      r.Fulfilled v (s.Over asked job.ticket r)) (t : Ticket) (result' : Outcome Result)
    (hmem : (t, result') ∈ (job.ticket, result) :: s.results) :
    (t, result') ∈ s.results ∨ t < s.pipeline.tickets ∧ ∀ v, result' = .ok v →
      ∀ r, (t, r) ∈ requested → r.Fulfilled v (s.Over asked t r) := by
  rcases List.mem_cons.mp hmem with heq | hold
  · cases heq
    exact .inr ⟨(h.jobs l lane hl job (Lane.mem_jobs.mpr (.inl hrunning))).1, hnew⟩
  · exact .inl hold

/-- A job that succeeds has heard of all the messages of its request. -/
theorem Bookkept.fulfils (hserved : s.Served) (h : s.Bookkept requested asked)
    (hheeds : s.pipeline.lanes.AllJobs (s.Heeds requested asked)) {l : LaneId} {lane : Lane Job}
    {result : Outcome Result} (hl : s.pipeline.lanes.get? l = some lane)
    (hrunning : lane.running = some ⟨t, .operate c (.done result)⟩) (v : Result)
    (hv : result = .ok v) (r : Request) (hr : (t, r) ∈ requested) :
    r.Fulfilled v (s.Over asked t r) := by
  have hjob := Lane.mem_jobs.mpr (.inl hrunning)
  obtain ⟨r', hr', hd, hfulfils⟩ := hheeds l lane hl _ hjob c _ rfl
  cases List.inj_on_of_nodup_map h.unique hr hr' rfl
  refine Request.Fulfilled.mono (hfulfils v hv) fun p m ⟨⟨hasked, hp⟩, o, ho, hover⟩ =>
    ⟨hasked, ?_, ?_⟩
  · rw [hp, hd]
    exact hserved.wired.jobs l lane hl _ hjob c _ rfl
  · rcases hover with hconfirms | ⟨hpasses, rfl⟩
    · exact .inl ⟨o, ho, hconfirms⟩
    · exact .inr ⟨hpasses, ho⟩

theorem Bookkept.jobStep {l : LaneId} (hserved : s.Served) (h : s.Bookkept requested asked)
    (hheeds : s.pipeline.lanes.AllJobs (s.Heeds requested asked)) (hjob : JobStep s l s')
    (hover : ∀ t r p m, s.Over asked t r p m → s'.Over asked' t r p m) :
    s'.Bookkept requested asked' := by
  cases hjob with
  | still => exact h.of_results hover (Nat.le_refl _) h.jobs fun _ _ hmem => .inl hmem
  | finish hl hrunning =>
      exact h.of_results hover (Nat.le_refl _) (h.jobs.finish l)
        (h.ending hl hrunning (h.fulfils hserved hheeds hl hrunning))
  | @answer lane t c q next a s₁ hl hrunning hperform =>
      have heff := perform_effects hperform
      have htickets : (s₁.suspendJob l ⟨t, .operate c (next a)⟩).pipeline.tickets =
          s.pipeline.tickets := heff.tickets
      have hresults : (s₁.suspendJob l ⟨t, .operate c (next a)⟩).results = s.results :=
        heff.results
      refine h.of_results hover (Nat.le_of_eq htickets.symm) ?_
        fun _ _ hmem => .inl (hresults ▸ hmem)
      rw [htickets, heff.lanes_suspendJob]
      refine h.jobs.modify l fun lane' hl' job hmem => ?_
      cases hl.symm.trans hl'
      cases Lane.mem_jobs.mp hmem with
      | inr hwaiting => exact h.jobs l lane hl job (Lane.mem_jobs.mpr (.inr hwaiting))
      | inl hrunning' =>
          cases hrunning'
          have hbooked := h.jobs l lane hl _ (Lane.mem_jobs.mpr (.inl hrunning))
          refine ⟨hbooked.1, fun r hr => ⟨fun hwork => ?_, fun f hwork => ?_⟩⟩
          · cases hwork
          · cases hwork
  | breakOff hl hrunning =>
      exact h.of_results hover (Nat.le_refl _) (h.jobs.finish l)
        (h.ending hl hrunning fun v hv => by cases hv)
  | @observe lane t f hl hrunning =>
      have hbooked := h.jobs l lane hl _ (Lane.mem_jobs.mpr (.inl hrunning))
      refine h.of_results hover (Nat.le_refl _) (h.jobs.finish l)
        (h.ending hl hrunning fun v hv r hr => ?_)
      cases hv
      exact fulfilled_descriptor ((hbooked.2 r hr).2 f rfl)
  | @clear lane t hl hrunning =>
      have hbooked := h.jobs l lane hl _ (Lane.mem_jobs.mpr (.inl hrunning))
      exact h.of_results hover (Nat.le_refl _) (h.jobs.finish l)
        (h.ending hl hrunning fun v hv r hr => absurd rfl (hbooked.2 r hr).1)

/-- An event in which no request is accepted keeps the books. -/
theorem Bookkept.kept (hserved : s.Served) (h : s.Bookkept requested asked)
    (hheeds : s.pipeline.lanes.AllJobs (s.Heeds requested asked)) (hnone : s.requested? e = none) :
    (s.after e).Bookkept requested (asked ++ (s.asked? e).toList) := by
  have hover (t : Ticket) (r : Request) (p : Promise) (m : Message)
      (hover : s.Over asked t r p m) := hover.after hserved e
  have hstep := (step_after hserved.plain e).1
  generalize s.asked? e = new at hover ⊢
  generalize s.after e = s' at hover hstep ⊢
  -- Most events change neither numbers nor jobs nor results.
  have hsame (hp : s'.pipeline.tickets = s.pipeline.tickets)
      (hlanes : s'.pipeline.lanes = s.pipeline.lanes) (hr : s'.results = s.results) :
      s'.Bookkept requested (asked ++ new.toList) :=
    h.of_results hover (Nat.le_of_eq hp.symm) (by rw [hp, hlanes]; exact h.jobs)
      fun _ _ hmem => .inl (hr ▸ hmem)
  cases hstep with
  | quiet _ hp hr _ _ => exact hsame (by rw [hp]) (by rw [hp]) hr
  | opened => exact hsame rfl rfl rfl
  | submitted hsubmit _ _ _ =>
      rw [requested?, hsubmit] at hnone
      cases hnone
  | attached _ _ _ hp hr _ _ => exact hsame (by rw [hp]) (by rw [hp]) hr
  | @detached _ d c closed _ _ _ hp hr _ _ =>
      have htickets : s'.pipeline.tickets = s.pipeline.tickets + 1 := by
        rw [hp]
        rfl
      refine h.of_results hover (htickets ▸ Nat.le_succ _) ?_ fun _ _ hmem => .inl (hr ▸ hmem)
      rw [htickets, hp]
      refine Lanes.AllJobs.removeDevice (Lanes.AllJobs.enqueue (h.jobs.mono fun _ job hjob =>
        ⟨Nat.lt_succ_of_lt hjob.1, hjob.2⟩) ⟨Nat.lt_succ_self _, fun r hr => ?_⟩) d
      exact absurd (h.numbered _ hr) (Nat.lt_irrefl _)
  | closed hp hr _ _ => exact hsame (by rw [hp]) (by rw [hp]) hr
  | started l =>
      exact h.of_results hover (Nat.le_refl _) (h.jobs.start l) fun _ _ hmem => .inl hmem
  | job hjob => exact h.jobStep hserved hheeds hjob hover

theorem Bookkept.after (hserved : s.Served) (h : s.Bookkept requested asked)
    (hheeds : s.pipeline.lanes.AllJobs (s.Heeds requested asked)) (e : Event) :
    (s.after e).Bookkept (requested ++ (s.requested? e).toList)
      (asked ++ (s.asked? e).toList) := by
  cases hrequested : s.requested? e with
  | none =>
      rw [Option.toList_none, List.append_nil]
      exact h.kept hserved hheeds hrequested
  | some a =>
      obtain ⟨quiet, p, rfl, hsubmit⟩ := requested?_eq_some hrequested
      have hnone : s.asked? (.submit a.2 quiet) = none := rfl
      rw [hnone, Option.toList_none, List.append_nil]
      exact h.submit hserved hsubmit

/-! ## Runs -/

section Runs

variable {config : Config} {s₀ : System} (hnew : System.new config = .ok s₀)
include hnew

theorem bookkept_go (es : List Event) :
    (s₀.go es).Bookkept (s₀.requestedIn es) (s₀.askedIn es) := by
  induction es using List.reverseRecOn with
  | nil =>
      cases eq_of_new hnew
      refine ⟨fun a ha => ?_, .nil, fun l lane hl => ?_, fun a ha => ?_, fun t v ht => ?_⟩
      · cases ha
      · cases hl
      · cases ha
      · cases ht
  | append_singleton es e ih =>
      rw [go_concat, requestedIn_concat, askedIn_concat]
      exact ih.after ((served_new hnew).go es) (heeds_go hnew es) e

/-- A request that has succeeded speaks for its messages. -/
theorem fulfilled_go {es : List Event} {v : Result} (hr : (t, r) ∈ s₀.requestedIn es)
    (hv : (s₀.go es).jobResult? t = some (.ok v)) :
    r.Fulfilled v ((s₀.go es).Over (s₀.askedIn es) t r) := by
  obtain ⟨l₁, l₂, hl, -⟩ := List.lookup_eq_some_iff.mp hv
  refine (bookkept_go hnew es).fulfilled t v ?_ r hr
  rw [hl]
  exact List.mem_append_cons_self

end Runs

end System

end Southbound
