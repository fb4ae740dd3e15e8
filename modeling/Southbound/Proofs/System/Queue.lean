import Southbound.Proofs.Jobs.OneLane
import Southbound.Proofs.System.Wiring

/-!
# The operations on one device

While a device stays attached, the operations on it are one queue.  An operation that
is accepted joins the queue at its end.  The one at the head is being done, and it
leaves the queue when its result is known.  There is nothing else
(`System.queueStep_after`).

Operations are numbered as they are accepted, so the queue is in ascending order, and
whatever was accepted before its head has a result (`System.Queued`).
-/

namespace Southbound.System

/-- The numbers of the jobs of a device that are not done, in the order in which they
are to be done. -/
def jobTickets (s : System) (d : DeviceId) : List Ticket :=
  (s.pipeline.lanes.jobsOf d).map Job.ticket

/-- The number of the operation on a device for which an event asks, if it is
accepted. -/
def accepted? (s : System) (d : DeviceId) : Event → Option Ticket
  | .submit r _ => if r.device = d then (s.pipeline.submit r).1.toOption else none
  | _ => none

/-- The numbers of the operations on a device that are accepted in a run. -/
def submittedIn (s : System) (d : DeviceId) : List Event → List Ticket
  | [] => []
  | e :: es => (s.accepted? d e).toList ++ (s.after e).submittedIn d es

/-- A run in which a device that is attached stays so. -/
def StaysAttached (s : System) (d : DeviceId) : List Event → Prop
  | [] => True
  | e :: es =>
    ((s.pipeline.attached.get? d).isSome → ((s.after e).pipeline.attached.get? d).isSome) ∧
      (s.after e).StaysAttached d es

instance decidableStaysAttached :
    (s : System) → (d : DeviceId) → (es : List Event) → Decidable (s.StaysAttached d es)
  | _, _, [] => isTrue trivial
  | s, d, e :: es =>
    have := decidableStaysAttached (s.after e) d es
    inferInstanceAs (Decidable (_ ∧ _))

/-- What an event can do to the queue of a device, with the number of the operation
that it adds. -/
inductive QueueStep (s : System) (d : DeviceId) (s' : System) : Option Ticket → Prop where
  | kept :
      s'.jobTickets d = s.jobTickets d → s.pipeline.tickets ≤ s'.pipeline.tickets →
      QueueStep s d s' none
  | joined :
      s'.jobTickets d = s.jobTickets d ++ [s.pipeline.tickets] →
      s'.pipeline.tickets = s.pipeline.tickets + 1 → QueueStep s d s' (some s.pipeline.tickets)
  /-- The operation at the head has a result and leaves the queue. -/
  | left (t : Ticket) :
      s.jobTickets d = t :: s'.jobTickets d → (s'.jobResult? t).isSome →
      s'.pipeline.tickets = s.pipeline.tickets → QueueStep s d s' none

variable {s s' : System} {d : DeviceId} {e : Event} {l : LaneId} {lane : Lane Job} {t : Ticket}

theorem submittedIn_concat (s : System) (d : DeviceId) (es : List Event) (e : Event) :
    s.submittedIn d (es ++ [e]) = s.submittedIn d es ++ ((s.go es).accepted? d e).toList := by
  induction es generalizing s with
  | nil => simp [submittedIn]
  | cons e' es ih =>
      rw [List.cons_append, submittedIn, submittedIn, ih, go_cons, List.append_assoc]

theorem staysAttached_concat {es : List Event} :
    s.StaysAttached d (es ++ [e]) ↔ s.StaysAttached d es ∧
      (((s.go es).pipeline.attached.get? d).isSome →
        ((s.go (es ++ [e])).pipeline.attached.get? d).isSome) := by
  induction es generalizing s with
  | nil => simp [StaysAttached]
  | cons e' es ih =>
      rw [List.cons_append, StaysAttached, StaysAttached, ih, go_cons, go_cons, and_assoc]

/-! ## Results -/

theorem jobResult?_append (new : List (Ticket × Outcome Result))
    (h : s'.results = new ++ s.results) (ht : (s.jobResult? t).isSome) :
    (s'.jobResult? t).isSome := by
  rw [jobResult?, h, List.lookup_append, Option.isSome_or]
  exact Bool.or_eq_true_iff.mpr (.inr ht)

/-- A result that is known stays known. -/
theorem jobResult?_after (hplain : s.Plain) (e : Event) (ht : (s.jobResult? t).isSome) :
    ((s.after e).jobResult? t).isSome := by
  have hstep := (step_after hplain e).1
  generalize s.after e = s' at hstep ⊢
  have hsame (h : s'.results = s.results) : (s'.jobResult? t).isSome :=
    jobResult?_append [] h ht
  cases hstep with
  | quiet _ _ hr _ _ => exact hsame hr
  | opened => exact hsame rfl
  | submitted _ hr _ _ => exact hsame hr
  | attached _ _ _ _ hr _ _ => exact hsame hr
  | detached _ _ _ _ hr _ _ => exact hsame hr
  | closed _ hr _ _ => exact hsame hr
  | started l => exact hsame rfl
  | job hjob =>
      cases hjob with
      | still => exact hsame rfl
      | answer _ _ hperform => exact hsame (perform_effects hperform).results
      | _ => exact jobResult?_append [_] rfl ht

/-- Results are added only when a job goes on. -/
theorem results_after {e : Event} (hplain : s.Plain) (he : e.lane? = none) :
    (s.after e).results = s.results := by
  have hstep := (step_after hplain e).1
  generalize s.after e = s' at hstep ⊢
  cases hstep with
  | quiet _ _ hr _ _ => exact hr
  | submitted _ hr _ _ => exact hr
  | attached _ _ _ _ hr _ _ => exact hr
  | detached _ _ _ _ hr _ _ => exact hr
  | closed _ hr _ _ => exact hr
  | opened => rfl
  | started => rfl
  | job => cases he

/-! ## What an event does to the queue -/

theorem accepted?_eq_some (h : s.accepted? d e = some t) :
    ∃ r quiet p, e = .submit r quiet ∧ r.device = d ∧ s.pipeline.submit r = (.ok t, p) := by
  cases e with
  | submit r quiet =>
      simp only [accepted?] at h
      split at h
      · next hd =>
          refine ⟨r, quiet, (s.pipeline.submit r).2, rfl, hd, ?_⟩
          cases hr : (s.pipeline.submit r).1 with
          | error cause =>
              rw [hr] at h
              cases h
          | ok t' =>
              rw [hr] at h
              cases h
              rw [← hr]
      · cases h
  | _ => cases h

theorem after_submit {r : Request} {quiet : Bool} {p : Pipeline}
    (h : s.pipeline.submit r = (.ok t, p)) : (s.after (.submit r quiet)).pipeline = p := by
  simp only [after, submit, h]
  rfl

theorem jobTickets_of_lanes (h : s'.pipeline.lanes.jobsOf d = s.pipeline.lanes.jobsOf d) :
    s'.jobTickets d = s.jobTickets d := by
  rw [jobTickets, h]
  rfl

section Single

variable (h : s.pipeline.lanes.Single d)
include h

/-- The operation that is being done is at the head of the queue. -/
theorem jobTickets_running (hl : s.pipeline.lanes.get? l = some lane) (hd : lane.device = d)
    {job : Job} (hjob : lane.running = some job) :
    s.jobTickets d = job.ticket :: lane.waiting.map Job.ticket := by
  rw [jobTickets, h.jobsOf_eq hl hd, Lane.jobs, hjob]
  rfl

/-- The pipeline changes, but not the lanes of the device. -/
theorem queueStep_kept (hl : s'.pipeline.lanes.ofDevice d = s.pipeline.lanes.ofDevice d)
    (ht : s.pipeline.tickets ≤ s'.pipeline.tickets) :
    s'.pipeline.lanes.Single d ∧ QueueStep s d s' none := by
  obtain ⟨hs, hq⟩ := h.of_ofDevice hl
  exact ⟨hs, .kept (jobTickets_of_lanes hq) ht⟩

/-- An operation is accepted. -/
theorem queueStep_joined {work : Work}
    (hp : s'.pipeline = (s.pipeline.enqueue d work).2) :
    s'.pipeline.lanes.Single d ∧ QueueStep s d s' (some s.pipeline.tickets) := by
  obtain ⟨hs, hq⟩ := h.enqueue (⟨s.pipeline.tickets, work⟩ : Job)
  rw [hp]
  refine ⟨hs, .joined ?_ (by rw [hp]; rfl)⟩
  rw [jobTickets, hp]
  show ((s.pipeline.lanes.enqueue d _).jobsOf d).map _ = _
  rw [hq, List.map_append]
  rfl

/-- A lane is changed, and its jobs have the numbers that they had. -/
theorem queueStep_modify {f : Lane Job → Lane Job} (hf : ∀ lane, (f lane).device = lane.device)
    (hr : ∀ lane, (f lane).released = lane.released)
    (hjobs : ∀ lane, s.pipeline.lanes.get? l = some lane →
      (f lane).jobs.map Job.ticket = lane.jobs.map Job.ticket)
    (hl : s'.pipeline.lanes = s.pipeline.lanes.modify l f)
    (ht : s'.pipeline.tickets = s.pipeline.tickets) :
    s'.pipeline.lanes.Single d ∧ QueueStep s d s' none := by
  by_cases hd : ∃ lane, s.pipeline.lanes.get? l = some lane ∧ lane.device = d
  · obtain ⟨lane, hlane, hd⟩ := hd
    obtain ⟨hs, hq⟩ := h.modify hlane hd hf (hr lane)
    rw [← hl] at hs hq
    refine ⟨hs, .kept ?_ (Nat.le_of_eq ht.symm)⟩
    rw [jobTickets, hq, hjobs lane hlane, jobTickets, h.jobsOf_eq hlane hd]
  · obtain ⟨hs, hq⟩ := h.modify_of_ne hf fun lane hlane hd' => hd ⟨lane, hlane, hd'⟩
    rw [← hl] at hs hq
    exact ⟨hs, .kept (jobTickets_of_lanes hq) (Nat.le_of_eq ht.symm)⟩

/-- A job ends with a result. -/
theorem queueStep_finish (hlane : s.pipeline.lanes.get? l = some lane) {job : Job}
    (hjob : lane.running = some job)
    (hl : s'.pipeline.lanes = s.pipeline.lanes.modify l Lane.finish)
    (ht : s'.pipeline.tickets = s.pipeline.tickets) (hr : (s'.jobResult? job.ticket).isSome) :
    s'.pipeline.lanes.Single d ∧ QueueStep s d s' none := by
  by_cases hd : lane.device = d
  · obtain ⟨hs, hq⟩ := h.modify hlane hd (f := Lane.finish) (fun _ => rfl) rfl
    rw [← hl] at hs hq
    refine ⟨hs, .left job.ticket ?_ hr ht⟩
    rw [jobTickets_running h hlane hd hjob, jobTickets, hq]
    rfl
  · have hne (lane' : Lane Job) (hlane' : s.pipeline.lanes.get? l = some lane') :
        lane'.device ≠ d := by
      cases hlane.symm.trans hlane'
      exact hd
    obtain ⟨hs, hq⟩ := h.modify_of_ne (f := Lane.finish) (fun _ => rfl) hne
    rw [← hl] at hs hq
    exact ⟨hs, .kept (jobTickets_of_lanes hq) (Nat.le_of_eq ht.symm)⟩

theorem queueStep_job (hstep : JobStep s l s') :
    s'.pipeline.lanes.Single d ∧ QueueStep s d s' none := by
  have hresult (s₀ : System) (t : Ticket) (result : Outcome Result) :
      ((s₀.finishJob l t result).jobResult? t).isSome := by
    simp [jobResult?, finishJob]
  cases hstep with
  | still => exact ⟨h, .kept rfl (Nat.le_refl _)⟩
  | finish hl hjob => exact queueStep_finish h hl hjob rfl rfl (hresult ..)
  | breakOff hl hjob => exact queueStep_finish h hl hjob rfl rfl (hresult ..)
  | observe hl hjob => exact queueStep_finish h hl hjob rfl rfl (hresult ..)
  | clear hl hjob => exact queueStep_finish h hl hjob rfl rfl (hresult ..)
  | @answer lane t c e next a s₁ hl hjob hperform =>
      have heff := perform_effects hperform
      refine queueStep_modify h (l := l)
        (f := fun lane => { lane with running := some ⟨t, .operate c (next a)⟩ })
        (fun _ => rfl) (fun _ => rfl) ?_ (heff.lanes_suspendJob l _) heff.tickets
      intro lane' hl'
      cases hl.symm.trans hl'
      rw [Lane.jobs, Lane.jobs, hjob]
      rfl

end Single

/-- All that an event does to the queue of a device that stays attached. -/
theorem queueStep_after (hplain : s.Plain) (h : s.pipeline.lanes.Single d) (e : Event)
    (hstays : (s.pipeline.attached.get? d).isSome →
      ((s.after e).pipeline.attached.get? d).isSome) :
    (s.after e).pipeline.lanes.Single d ∧ QueueStep s d (s.after e) (s.accepted? d e) := by
  cases haccepted : s.accepted? d e with
  | some t =>
      obtain ⟨r, quiet, p, rfl, rfl, hsubmit⟩ := accepted?_eq_some haccepted
      obtain ⟨c, -, -, rfl, rfl⟩ := submit_ok hsubmit
      exact queueStep_joined h (after_submit hsubmit)
  | none =>
      have hstep := (step_after hplain e).1
      generalize s.after e = s' at hstep hstays ⊢
      cases hstep with
      | quiet _ hp _ _ _ => exact queueStep_kept h (by rw [hp]) (Nat.le_of_eq (by rw [hp]))
      | opened => exact queueStep_kept h rfl (Nat.le_refl _)
      | @submitted r quiet t _ hsubmit _ _ _ =>
          obtain ⟨c, -, -, -, hp⟩ := submit_ok hsubmit
          have hne : r.device ≠ d := by
            intro hd
            rw [accepted?, if_pos hd, hsubmit] at haccepted
            cases haccepted
          refine queueStep_kept h ?_ (by rw [hp]; exact Nat.le_succ _)
          rw [hp]
          exact Lanes.ofDevice_enqueue_of_ne hne _
      | attached _ _ _ hp _ _ _ => exact queueStep_kept h (by rw [hp]) (Nat.le_of_eq (by rw [hp]))
      | @detached _ d' c closed _ _ hc hp _ _ _ =>
          -- It is another device that is detached.
          have hne : d' ≠ d := by
            rintro rfl
            have hgone : s'.pipeline.attached.get? d' = none := by
              rw [hp]
              exact Table.get?_erase_self _ d'
            rw [hc, hgone] at hstays
            cases hstays rfl
          refine queueStep_kept h ?_ (by rw [hp]; exact Nat.le_succ _)
          rw [hp]
          exact (Lanes.ofDevice_removeDevice_of_ne hne).trans (Lanes.ofDevice_enqueue_of_ne hne _)
      | closed hp _ _ _ => exact queueStep_kept h (by rw [hp]) (Nat.le_of_eq (by rw [hp]))
      | started l =>
          refine queueStep_modify h (l := l) (f := Lane.start) Lanes.start_device ?_ ?_ rfl rfl
          · intro lane
            rw [Lane.start]
            split <;> rfl
          · intro lane _
            rw [Lane.jobs_start]
      | job hjob => exact queueStep_job h hjob

/-! ## The order of the queue -/

/-- The queue of a device, of which these operations were accepted. -/
structure Queued (s : System) (d : DeviceId) (submitted : List Ticket) : Prop where
  /-- The device has no lane beside the one that takes jobs. -/
  single : s.pipeline.lanes.Single d
  /-- The operations were numbered as they were accepted. -/
  ascending : submitted.Pairwise (· < ·)
  /-- The next number is greater than all these. -/
  bounded : ∀ t ∈ submitted, t < s.pipeline.tickets
  /-- They are done in the order in which they were accepted. -/
  queue : (s.jobTickets d).Sublist submitted
  /-- Those that are not in the queue have a result. -/
  settled : ∀ t ∈ submitted, t ∈ s.jobTickets d ∨ (s.jobResult? t).isSome

theorem queued_new {config : Config} {s₀ : System} (h : System.new config = .ok s₀)
    (d : DeviceId) : s₀.Queued d [] := by
  cases eq_of_new h
  exact ⟨.inl rfl, .nil, by simp, .refl [], by simp⟩

variable {submitted : List Ticket}

theorem Queued.after (hplain : s.Plain) (h : s.Queued d submitted) (e : Event)
    (hstays : (s.pipeline.attached.get? d).isSome →
      ((s.after e).pipeline.attached.get? d).isSome) :
    (s.after e).Queued d (submitted ++ (s.accepted? d e).toList) := by
  obtain ⟨hsingle, hstep⟩ := queueStep_after hplain h.single e hstays
  have hresult (t : Ticket) := jobResult?_after (t := t) hplain e
  generalize s.after e = s' at hsingle hstep hresult ⊢
  generalize s.accepted? d e = accepted at hstep ⊢
  cases hstep with
  | kept hq ht =>
      rw [Option.toList_none, List.append_nil]
      refine ⟨hsingle, h.ascending, ?_, hq ▸ h.queue, ?_⟩
      · intro t hmem
        exact Nat.lt_of_lt_of_le (h.bounded t hmem) ht
      · intro t hmem
        rw [hq]
        exact (h.settled t hmem).imp_right (hresult t)
  | joined hq ht =>
      refine ⟨hsingle, ?_, ?_, ?_, ?_⟩
      · refine List.pairwise_append.mpr ⟨h.ascending, List.pairwise_singleton .., ?_⟩
        intro t hmem t' ht'
        rw [List.mem_singleton.mp ht']
        exact h.bounded t hmem
      · intro t hmem
        rw [ht]
        cases List.mem_append.mp hmem with
        | inl hold => exact Nat.lt_succ_of_lt (h.bounded t hold)
        | inr hnew => exact List.mem_singleton.mp hnew ▸ Nat.lt_succ_self _
      · rw [hq]
        exact h.queue.append (.refl _)
      · intro t hmem
        rw [hq, List.mem_append]
        cases List.mem_append.mp hmem with
        | inl hold => exact (h.settled t hold).imp .inl (hresult t)
        | inr hnew => exact .inl (.inr hnew)
  | left t' hq hr ht =>
      rw [Option.toList_none, List.append_nil]
      have hqueue := h.queue
      rw [hq] at hqueue
      refine ⟨hsingle, h.ascending, ?_, (List.sublist_cons_self _ _).trans hqueue, ?_⟩
      · intro t hmem
        rw [ht]
        exact h.bounded t hmem
      · intro t hmem
        cases h.settled t hmem with
        | inr hknown => exact .inr (hresult t hknown)
        | inl hin =>
            rw [hq] at hin
            cases hin with
            | head => exact .inr hr
            | tail _ hin => exact .inl hin

/-- Whatever is in the queue comes after the operation that is being done. -/
theorem Queued.running_le (h : s.Queued d submitted) (hl : s.pipeline.lanes.get? l = some lane)
    (hd : lane.device = d) {job : Job} (hjob : lane.running = some job) :
    ∀ t ∈ s.jobTickets d, job.ticket ≤ t := by
  have hqueue := h.ascending.sublist h.queue
  rw [jobTickets_running h.single hl hd hjob] at hqueue ⊢
  intro t hmem
  cases hmem with
  | head => exact Nat.le_refl _
  | tail _ hin => exact Nat.le_of_lt ((List.pairwise_cons.mp hqueue).1 t hin)

/-- Whatever was accepted before the operation that is being done has a result. -/
theorem Queued.settled_before (h : s.Queued d submitted) (hl : s.pipeline.lanes.get? l = some lane)
    (hd : lane.device = d) {job : Job} (hjob : lane.running = some job) (hmem : t ∈ submitted)
    (hlt : t < job.ticket) : (s.jobResult? t).isSome := by
  refine (h.settled t hmem).resolve_left fun hin => ?_
  exact Nat.not_le_of_lt hlt (h.running_le hl hd hjob t hin)

/-- The queue of a device that stays attached is in order in every run. -/
theorem Queued.go {s₀ : System} (hplain : s₀.Plain) (h : s₀.Queued d []) (es : List Event)
    (hstays : s₀.StaysAttached d es) : (s₀.go es).Queued d (s₀.submittedIn d es) := by
  induction es using List.reverseRecOn with
  | nil => exact h
  | append_singleton es e ih =>
      obtain ⟨hes, he⟩ := staysAttached_concat.mp hstays
      rw [go_concat] at he
      rw [go_concat, submittedIn_concat]
      exact (ih hes).after (plain_go hplain es) e he

end Southbound.System
