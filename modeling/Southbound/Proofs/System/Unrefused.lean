import Southbound.Proofs.Connection.Results
import Southbound.Proofs.Operation.Refusals
import Southbound.Proofs.System.Books
import Southbound.Proofs.System.Frames

/-!
# Jobs and refusals

A batch without members is a job like others, and it ends with its refusal.  No other job ends
with a refusal (`System.judged_go`), if the codecs of the connections do not refuse messages as
requests are refused (`Codec.Unrefusing`).
-/

namespace Southbound

/-! ## Connections -/

/-- A codec that refuses no message as a request is refused. -/
def Codec.Unrefusing (codec : Codec) : Prop :=
  ∀ e cause, codec.write e = .error cause → cause.isRefusal = false

theorem Codec.unrefusing_json : Codec.json.Unrefusing := by
  intro e cause h
  simp only [Codec.json, reduceCtorEq] at h

/-- A connection that has refused no message as a request is refused. -/
structure Connection.Unrefusing (c : Connection) : Prop where
  codec : c.codec.Unrefusing
  results : ∀ x ∈ c.registry.settled, Unrefused x.2

namespace Connection

variable {c c' : Connection}

theorem Yields.unrefused {e : Event} {o : Outcome Message} (h : c.Yields e o)
    (hcodec : c.codec.Unrefusing) : Unrefused o := by
  cases h with
  | @answered f e _ =>
      cases e.message with
      | error rejection => exact unrefused_error rfl
      | _ => exact unrefused_ok _
  | unwritten hwrite => exact unrefused_error (hcodec _ _ hwrite)
  | _ => exact unrefused_error rfl

theorem Unrefusing.after (h : c.Unrefusing) (e : Event) : (c.after e).Unrefusing where
  codec := (same_after c e).codec ▸ h.codec
  results x hx := (yields_after c e x hx).elim (h.results x) (·.unrefused h.codec)

end Connection

namespace System

variable {s s' : System} {d : DeviceId} {c : ConnectionId} {e : Event} {t : Ticket} {p : Promise}
  {r : Request} {cause : Failure} {o : Outcome Result} {w : Work} {honest : Prop}
  {requested requested' : List (Ticket × Request)}
  {asked asked' : List (Ticket × Promise × Message)}

/-- No connection has refused a message as a request is refused. -/
def Unrefusing (s : System) : Prop :=
  ∀ (c : ConnectionId) conn, s.connections[c]? = some conn → conn.Unrefusing

theorem Unrefusing.after (hplain : s.Plain) (h : s.Unrefusing)
    (he : ∀ d codec n, e = .openConnection d codec n → codec.Unrefusing) :
    (s.after e).Unrefusing := by
  intro c conn' hc'
  cases hc : s.connections[c]? with
  | some conn =>
      obtain ⟨conn₁, hc₁, hround⟩ := exists_round hplain e hc
      cases hc'.symm.trans hc₁
      exact hround.inv Connection.Unrefusing (fun _ e hconn => hconn.after e) (h c conn hc)
  | none =>
      cases came_after hplain e hc' with
      | @opened d codec n _ hopen =>
          rw [Connection.eq_of_open hopen]
          exact ⟨he d codec n rfl, List.forall_mem_nil _⟩
      | received hsome _ => cases hc.symm.trans hsome
      | unprompted hsome _ _ => cases hc.symm.trans hsome

/-! ## Jobs -/

/-- A result that is known is no refusal. -/
theorem Unrefusing.unrefused (h : s.Unrefusing) (hp : p.Unrefused) {result : Outcome Message}
    (hresult : s.result? p = some result) : Unrefused result := by
  obtain ⟨conn, hc, hresult⟩ := Option.bind_eq_some_iff.mp hresult
  cases hreply : p.reply with
  | failed x cause =>
      rw [hreply] at hresult
      cases hresult
      exact unrefused_error (hp x cause hreply)
  | awaited x slot =>
      rw [hreply] at hresult
      obtain ⟨l₁, l₂, hl, -⟩ := List.lookup_eq_some_iff.mp hresult
      exact (h _ conn hc).results (slot, result) (hl ▸ List.mem_append_cons_self)

theorem unrefused_send {m : Message} (h : s.send c none m = some (p, s')) : p.Unrefused := by
  obtain ⟨conn, -, heq⟩ := Option.map_eq_some_iff.mp h
  cases heq
  intro x cause hreply
  rcases conn.allocate.2.reply_send_cases s.now conn.allocate.1 m with hslot | hused | hlost
  · cases hslot.symm.trans hreply
  · cases hused.symm.trans hreply
    rfl
  · cases hlost.symm.trans hreply
    rfl

/-- What a job is told is no refusal. -/
theorem Unrefusing.next_of_perform {q : Effect} {a : q.Answer} (h : s.Unrefusing)
    (hperform : s.perform d c q = .answer a s') : unrefusing.next () q a () := by
  cases performed_of_answer hperform with
  | sent hsend => exact unrefused_send hsend
  | awaited hresult => exact fun hp => h.unrefused hp hresult
  | _ => trivial

end System

namespace Request

variable {r : Request} {cause : Failure} {o : Outcome Result} {w : Work} {honest : Prop}

/-- What is left to do of a request that was accepted: nothing of a batch without members, and of
others something that does not refuse them if nobody else does. -/
def Ahead (honest : Prop) (r : Request) (w : Work) : Prop :=
  match r.emptyBatch? with
  | some cause => ∃ c, w = .operate c (.done (.error cause))
  | none => honest → w.Unrefused

/-- What a request that was accepted comes to: a batch without members is refused, and no other
if nobody else refuses it. -/
def Due (honest : Prop) (r : Request) (o : Outcome Result) : Prop :=
  match r.emptyBatch? with
  | some cause => o = .error cause
  | none => honest → Unrefused o

theorem ahead_work (honest : Prop) (r : Request) (policy : OperationPolicy) (c : ConnectionId) :
    r.Ahead honest (r.work policy c) := by
  rw [Ahead]
  split
  · next hempty => exact ⟨c, work_of_emptyBatch? hempty policy c⟩
  · next hempty => exact fun _ => work_unrefused hempty policy c

theorem Ahead.due {c : ConnectionId} (h : r.Ahead honest (.operate c (.done o))) :
    r.Due honest o := by
  rw [Ahead] at h
  rw [Due]
  split at h
  · obtain ⟨_, heq⟩ := h
    cases heq
    rfl
  · exact h

/-- Work that is not over is not that of a batch without members. -/
theorem Ahead.unrefused (h : r.Ahead honest w) (hw : ∀ c o, w ≠ .operate c (.done o)) :
    r.emptyBatch? = none ∧ (honest → w.Unrefused) := by
  rw [Ahead] at h
  split at h
  · obtain ⟨c, heq⟩ := h
    exact absurd heq (hw c _)
  · next hempty => exact ⟨hempty, h⟩

theorem Ahead.due_of_unrefused (h : r.Ahead honest w) (hw : ∀ c o, w ≠ .operate c (.done o))
    (ho : Unrefused o) : r.Due honest o := by
  rw [Due, (h.unrefused hw).1]
  exact fun _ => ho

/-- A job goes on with an answer that is no refusal. -/
theorem Ahead.next {c : ConnectionId} {q : Effect} {next : q.Answer → Program (Outcome Result)}
    {a : q.Answer} (h : r.Ahead honest (.operate c (.step q next)))
    (ha : honest → unrefusing.next () q a ()) : r.Ahead honest (.operate c (next a)) := by
  obtain ⟨hempty, hunrefused⟩ := h.unrefused (by rintro _ _ ⟨⟩)
  rw [Ahead, hempty]
  exact fun hhonest => (hunrefused hhonest).2 a () (ha hhonest)

end Request

namespace System

variable {s s' : System} {l : LaneId} {e : Event} {t : Ticket} {r : Request} {honest : Prop}
  {requested : List (Ticket × Request)} {asked : List (Ticket × Promise × Message)}

/-- The jobs of requests that were accepted come to what is due. -/
structure Judged (honest : Prop) (s : System) (requested : List (Ticket × Request)) : Prop where
  jobs : s.pipeline.lanes.AllJobs fun _ job =>
    ∀ r, (job.ticket, r) ∈ requested → r.Ahead honest job.work
  ended : ∀ t o, (t, o) ∈ s.results → ∀ r, (t, r) ∈ requested → r.Due honest o

theorem Judged.submit (hplain : s.Plain) (hbooks : s.Bookkept requested asked)
    (h : s.Judged honest requested) {quiet : Bool} {pipeline : Pipeline}
    (hsubmit : s.pipeline.submit r = (.ok t, pipeline)) :
    (s.after (.submit r quiet)).Judged honest (requested ++ [(t, r)]) := by
  have hp : (s.after (.submit r quiet)).pipeline = pipeline := after_submit hsubmit
  obtain ⟨c, -, -, rfl, rfl⟩ := submit_ok hsubmit
  have hjobs : s.pipeline.lanes.AllJobs fun _ job =>
      ∀ r', (job.ticket, r') ∈ requested ++ [(s.pipeline.tickets, r)] → r'.Ahead honest job.work :=
    fun l lane hl job hjob r' hr' =>
      h.jobs l lane hl job hjob r' (mem_of_lt_ticket (hbooks.jobs l lane hl job hjob).1 hr')
  constructor
  · rw [hp]
    refine hjobs.enqueue fun r' hr' => ?_
    rcases List.mem_append.mp hr' with hr' | hr'
    · exact absurd (hbooks.numbered _ hr') (Nat.lt_irrefl _)
    · cases List.mem_singleton.mp hr'
      exact r.ahead_work honest _ c
  · intro t o hmem r' hr'
    rw [results_after hplain rfl] at hmem
    exact h.ended t o hmem r' (mem_of_lt_ticket (hbooks.ended _ hmem) hr')

/-- A job ends with what is due. -/
theorem Judged.ending (h : s.Judged honest requested) {o : Outcome Result}
    (ho : ∀ r, (t, r) ∈ requested → r.Due honest o) (t' : Ticket) (o' : Outcome Result)
    (hmem : (t', o') ∈ (t, o) :: s.results) (r : Request) (hr : (t', r) ∈ requested) :
    r.Due honest o' := by
  rcases List.mem_cons.mp hmem with heq | hold
  · cases heq
    exact ho r hr
  · exact h.ended t' o' hold r hr

theorem Judged.jobStep (h : s.Judged honest requested) (hhonest : honest → s.Unrefusing)
    (hjob : JobStep s l s') : s'.Judged honest requested := by
  have hahead {lane : Lane Job} {job : Job} (hl : s.pipeline.lanes.get? l = some lane)
      (hrunning : lane.running = some job) :=
    h.jobs l lane hl job (Lane.mem_jobs.mpr (.inl hrunning))
  cases hjob with
  | still => exact h
  | finish hl hrunning =>
      exact ⟨h.jobs.finish l, h.ending fun r hr => (hahead hl hrunning r hr).due⟩
  | breakOff hl hrunning =>
      refine ⟨h.jobs.finish l, h.ending fun r hr => ?_⟩
      exact (hahead hl hrunning r hr).due_of_unrefused (by rintro _ _ ⟨⟩) (unrefused_error rfl)
  | observe hl hrunning =>
      refine ⟨h.jobs.finish l, h.ending fun r hr => ?_⟩
      exact (hahead hl hrunning r hr).due_of_unrefused (by rintro _ _ ⟨⟩) (unrefused_ok _)
  | clear hl hrunning =>
      refine ⟨h.jobs.finish l, h.ending fun r hr => ?_⟩
      exact (hahead hl hrunning r hr).due_of_unrefused (by rintro _ _ ⟨⟩) (unrefused_ok _)
  | @answer lane t c q next a s₁ hl hrunning hperform =>
      have heff := perform_effects hperform
      refine ⟨?_, fun t o hmem => h.ended t o (heff.results ▸ hmem)⟩
      rw [heff.lanes_suspendJob]
      refine h.jobs.modify l fun lane' hl' job hmem => ?_
      cases hl.symm.trans hl'
      rcases Lane.mem_jobs.mp hmem with hrunning' | hwaiting
      · cases hrunning'
        exact fun r hr => (hahead hl hrunning r hr).next fun hh =>
          (hhonest hh).next_of_perform hperform
      · exact h.jobs l lane hl job (Lane.mem_jobs.mpr (.inr hwaiting))

/-- An event in which no request is accepted. -/
theorem Judged.kept (hplain : s.Plain) (hbooks : s.Bookkept requested asked)
    (h : s.Judged honest requested) (hhonest : honest → s.Unrefusing)
    (hnone : s.requested? e = none) : (s.after e).Judged honest requested := by
  have hstep := (step_after hplain e).1
  generalize s.after e = s' at hstep ⊢
  have hsame (hlanes : s'.pipeline.lanes = s.pipeline.lanes) (hr : s'.results = s.results) :
      s'.Judged honest requested :=
    ⟨hlanes ▸ h.jobs, fun t o hmem => h.ended t o (hr ▸ hmem)⟩
  cases hstep with
  | quiet _ hp hr _ _ => exact hsame (by rw [hp]) hr
  | opened => exact hsame rfl rfl
  | submitted hsubmit _ _ _ =>
      rw [requested?, hsubmit] at hnone
      cases hnone
  | attached _ _ _ hp hr _ _ => exact hsame (by rw [hp]) hr
  | @detached _ d c closed _ _ _ hp hr _ _ =>
      refine ⟨?_, fun t o hmem => h.ended t o (hr ▸ hmem)⟩
      rw [hp]
      refine Lanes.AllJobs.removeDevice (h.jobs.enqueue fun r hr => ?_) d
      exact absurd (hbooks.numbered _ hr) (Nat.lt_irrefl _)
  | closed hp hr _ _ => exact hsame (by rw [hp]) hr
  | started l => exact ⟨h.jobs.start l, h.ended⟩
  | job hjob => exact h.jobStep hhonest hjob

theorem Judged.after (hplain : s.Plain) (hbooks : s.Bookkept requested asked)
    (h : s.Judged honest requested) (hhonest : honest → s.Unrefusing) (e : Event) :
    (s.after e).Judged honest (requested ++ (s.requested? e).toList) := by
  cases hrequested : s.requested? e with
  | none =>
      rw [Option.toList_none, List.append_nil]
      exact h.kept hplain hbooks hhonest hrequested
  | some a =>
      obtain ⟨quiet, p, rfl, hsubmit⟩ := requested?_eq_some hrequested
      exact h.submit hplain hbooks hsubmit

/-! ## Runs -/

section Runs

variable {config : Config} {s₀ : System} (hnew : System.new config = .ok s₀)
include hnew

theorem unrefusing_go {es : List Event}
    (hcodecs : ∀ d codec n, .openConnection d codec n ∈ es → codec.Unrefusing) :
    (s₀.go es).Unrefusing := by
  induction es using List.reverseRecOn with
  | nil =>
      cases eq_of_new hnew
      intro c conn hc
      cases hc
  | append_singleton es e ih =>
      rw [go_concat]
      refine (ih fun d codec n hmem => hcodecs d codec n (List.mem_append_left _ hmem)).after
        ((served_new hnew).go es).plain fun d codec n he => ?_
      exact hcodecs d codec n (List.mem_append_right _ (List.mem_singleton.mpr he.symm))

/-- Whatever happens, a batch without members comes to its refusal, and no other request that was
accepted is refused, if no codec refuses messages so. -/
theorem judged_go {es : List Event}
    (hcodecs : honest → ∀ d codec n, .openConnection d codec n ∈ es → codec.Unrefusing) :
    (s₀.go es).Judged honest (s₀.requestedIn es) := by
  induction es using List.reverseRecOn with
  | nil =>
      cases eq_of_new hnew
      exact ⟨fun l lane hl => (by cases hl), fun t o hmem => (by cases hmem)⟩
  | append_singleton es e ih =>
      have hcodecs' (hh : honest) (d : DeviceId) (codec : Codec) (n : Nat)
          (hmem : .openConnection d codec n ∈ es) : codec.Unrefusing :=
        hcodecs hh d codec n (List.mem_append_left _ hmem)
      rw [go_concat, requestedIn_concat]
      exact (ih hcodecs').after ((served_new hnew).go es).plain (bookkept_go hnew es)
        (fun hh => unrefusing_go hnew (hcodecs' hh)) e

end Runs

end System

end Southbound
