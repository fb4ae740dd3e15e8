import Southbound.Proofs.Connection.Ledger
import Southbound.Proofs.System.Queue

/-!
# Messages reach the wire in the order of their operations

Every message that joins the queue of a connection is marked with the operation that
handed it over, if it was an operation (`System.handedIn`).  A device that stays
attached gets its messages operation by operation: what is on a wire to it are some of
those that were handed over, in the same order, and the numbers of their operations
ascend.  No operation hands a message over before all that were accepted before it
have results (`System.operations_in_order`).

Three matters come together.  The queue of the connection and its writer keep the
order, whatever they drop (`Connection.Ledger`).  A job sends on a connection to the
device of its lane (`System.Wired`).  The operations on a device are one queue, and
only the one at its head goes on (`System.Queued`).
-/

namespace Southbound.System

/-! ## Messages and the operations that hand them over -/

/-- The number of the job that goes on in an event. -/
def sourceOf? (s : System) (e : Event) : Option Ticket :=
  (e.lane?.bind s.pipeline.lanes.get?).bind fun lane => lane.running.map Job.ticket

/-- The messages that an event hands to a connection, with the number of the operation
that goes on. -/
def handed (s : System) (c : ConnectionId) (e : Event) : List (Option Ticket × Envelope) :=
  match s.connections[c]?, (s.after e).connections[c]? with
  | some conn, some conn' => Connection.newlyJoined (s.sourceOf? e) conn conn'
  | _, _ => []

/-- The messages that are handed to a connection in a run. -/
def handedIn (s : System) (c : ConnectionId) : List Event → List (Option Ticket × Envelope)
  | [] => []
  | e :: es => s.handed c e ++ (s.after e).handedIn c es

/-- The numbers of the operations that some messages come from. -/
def operationsOf (ms : List (Option Ticket × Envelope)) : List Ticket := ms.filterMap Prod.fst

variable {s s' : System} {d : DeviceId} {c : ConnectionId} {t : Ticket}
  {joined : List (Option Ticket × Envelope)}

theorem handedIn_concat (s : System) (c : ConnectionId) (es : List Event) (e : Event) :
    s.handedIn c (es ++ [e]) = s.handedIn c es ++ (s.go es).handed c e := by
  induction es generalizing s with
  | nil => simp [handedIn]
  | cons e' es ih =>
      rw [List.cons_append, handedIn, handedIn, ih, go_cons, List.append_assoc]

/-! ## The way through a connection -/

/-- What joined the queue of a connection explains its messages. -/
structure Recorded (s : System) (c : ConnectionId) (joined : List (Option Ticket × Envelope)) :
    Prop where
  ledger : ∀ conn, s.connections[c]? = some conn →
    ∃ L : Connection.Ledger (Option Ticket), L.Explains conn joined
  unopened : s.connections[c]? = none → joined = []

theorem Recorded.after (hplain : s.Plain) (h : s.Recorded c joined) (e : Event) :
    (s.after e).Recorded c (joined ++ s.handed c e) := by
  cases hc : s.connections[c]? with
  | some conn =>
      obtain ⟨conn', hc', hround⟩ := exists_round hplain e hc
      obtain ⟨L, hL⟩ := h.ledger conn hc
      rw [handed, hc, hc']
      refine ⟨fun conn₁ hconn₁ => ?_, fun hnone => ?_⟩
      · cases hc'.symm.trans hconn₁
        exact hL.step hround.transit hround.same.codec _
      · cases hc'.symm.trans hnone
  | none =>
      rw [h.unopened hc, handed, hc]
      refine ⟨fun conn hconn => ?_, fun _ => rfl⟩
      obtain ⟨d, codec, wireCapacity, hopen⟩ := opened_of_none hplain e hc hconn
      rw [Connection.open?] at hopen
      split at hopen
      · cases hopen
        exact ⟨{}, Connection.Ledger.explains_empty rfl rfl rfl⟩
      · cases hopen

theorem Recorded.go {s₀ : System} (hplain : s₀.Plain) (h : s₀.Recorded c []) (es : List Event) :
    (s₀.go es).Recorded c (s₀.handedIn c es) := by
  induction es using List.reverseRecOn with
  | nil => exact h
  | append_singleton es e ih =>
      rw [go_concat, handedIn_concat]
      exact ih.after (plain_go hplain es) e

/-! ## The operation that hands a message over -/

theorem send_elsewhere {c' : ConnectionId} {x : Option Xid} {m : Message} {p : Promise}
    (h : s.send c x m = some (p, s')) (hne : c' ≠ c) :
    s'.connections[c']? = s.connections[c']? := by
  obtain ⟨conn, -, he⟩ := Option.map_eq_some_iff.mp h
  cases he
  exact List.getElem?_modify_ne _ _ (Ne.symm hne)

/-- An effect for one connection leaves the others alone. -/
theorem perform_elsewhere {c' : ConnectionId} {e : Effect} {a : e.Answer}
    (h : s.perform d c e = .answer a s') (hne : c' ≠ c) :
    s'.connections[c']? = s.connections[c']? := by
  cases performed_of_answer h with
  | sent hsend => exact send_elsewhere hsend hne
  | _ => rfl

theorem sourceOf?_eq_some {e : Event} (h : s.sourceOf? e = some t) :
    ∃ l lane job, e = .stepJob l ∧ s.pipeline.lanes.get? l = some lane ∧
      lane.running = some job ∧ job.ticket = t := by
  obtain ⟨lane, hlane, hticket⟩ := Option.bind_eq_some_iff.mp h
  obtain ⟨l, hl, hget⟩ := Option.bind_eq_some_iff.mp hlane
  obtain ⟨job, hjob, rfl⟩ := Option.map_eq_some_iff.mp hticket
  cases e with
  | stepJob l' =>
      cases hl
      exact ⟨l, lane, job, rfl, hget, hjob, rfl⟩
  | _ => cases hl

/-- An event that hands a message to a connection changes the connection. -/
theorem mem_handed {e : Event} {m : Option Ticket × Envelope} (h : m ∈ s.handed c e) :
    m.1 = s.sourceOf? e ∧ (s.after e).connections[c]? ≠ s.connections[c]? := by
  rw [handed] at h
  split at h
  · next conn conn' hc hc' =>
      obtain ⟨envelope, henvelope, rfl⟩ := List.mem_map.mp h
      refine ⟨rfl, fun hsame => ?_⟩
      rw [hc, hc'] at hsame
      cases hsame
      rw [List.drop_length] at henvelope
      cases henvelope
  · cases h

/-- An operation that hands a message to a connection is being done for the device of
the connection. -/
theorem exists_running (hwired : s.Wired) {e : Event} (hd : s.deviceOf? c = some d)
    (ht : t ∈ operationsOf (s.handed c e)) :
    ∃ l lane job, s.pipeline.lanes.get? l = some lane ∧ lane.device = d ∧
      lane.running = some job ∧ job.ticket = t := by
  obtain ⟨m, hm, hmt⟩ := List.mem_filterMap.mp ht
  obtain ⟨hsource, hchanged⟩ := mem_handed hm
  obtain ⟨l, lane, job, rfl, hl, hjob, hticket⟩ := sourceOf?_eq_some (hsource.symm.trans hmt)
  refine ⟨l, lane, job, hl, ?_, hjob, hticket⟩
  have hstep := jobStep_stepJob s l
  replace hchanged : (s.stepJob l).connections[c]? ≠ s.connections[c]? := hchanged
  generalize s.stepJob l = s' at hstep hchanged
  cases hstep with
  | @answer lane' t' c' effect next a s₁ hl' hjob' hperform =>
      cases hl.symm.trans hl'
      -- The connection that has changed is the one that the job works on.
      have hc : c = c' := by
        by_contra hne
        have hsame : s₁.connections[c]? = s.connections[c]? := perform_elsewhere hperform hne
        exact hchanged hsame
      have hdevice := hwired.jobs l lane hl _ (Lane.mem_jobs.mpr (.inl hjob')) c' _ rfl
      rw [← hc, hd] at hdevice
      exact (Option.some.inj hdevice).symm
  | _ => exact absurd rfl hchanged

/-! ## The order of the operations -/

/-- What operations on a device handed to a connection to it. -/
structure Marked (s : System) (d : DeviceId) (submitted : List Ticket)
    (joined : List (Option Ticket × Envelope)) : Prop where
  /-- They handed it over in the order in which they were accepted. -/
  ascending : (operationsOf joined).Pairwise (· ≤ ·)
  accepted : ∀ t ∈ operationsOf joined, t ∈ submitted
  /-- None of them comes after one that is to be done. -/
  before : ∀ t ∈ operationsOf joined, ∀ t' ∈ s.jobTickets d, t ≤ t'

theorem operationsOf_append (ms ms' : List (Option Ticket × Envelope)) :
    operationsOf (ms ++ ms') = operationsOf ms ++ operationsOf ms' :=
  List.filterMap_append

variable {submitted : List Ticket}

theorem marked_nil : s.Marked d submitted [] :=
  ⟨.nil, by simp [operationsOf], by simp [operationsOf]⟩

/-- What comes before all that is to be done, still does after an event. -/
theorem QueueStep.before {accepted : Option Ticket} (h : QueueStep s d s' accepted)
    (ht : t < s.pipeline.tickets) (hbefore : ∀ t' ∈ s.jobTickets d, t ≤ t') :
    ∀ t' ∈ s'.jobTickets d, t ≤ t' := by
  intro t' hmem
  cases h with
  | kept hq _ => exact hbefore t' (hq ▸ hmem)
  | joined hq _ =>
      rw [hq] at hmem
      cases List.mem_append.mp hmem with
      | inl hold => exact hbefore t' hold
      | inr hnew => exact List.mem_singleton.mp hnew ▸ Nat.le_of_lt ht
  | left t₀ hq _ _ => exact hbefore t' (hq ▸ .tail _ hmem)

theorem Marked.after (hplain : s.Plain) (hwired : s.Wired) (hqueued : s.Queued d submitted)
    (h : s.Marked d submitted joined) (hd : s.deviceOf? c = some d) (e : Event)
    (hstays : (s.pipeline.attached.get? d).isSome →
      ((s.after e).pipeline.attached.get? d).isSome) :
    (s.after e).Marked d (submitted ++ (s.accepted? d e).toList) (joined ++ s.handed c e) := by
  obtain ⟨-, hstep⟩ := queueStep_after hplain hqueued.single e hstays
  -- Whatever is handed over now comes from the head of the queue.
  have hhead : ∀ t ∈ operationsOf (s.handed c e),
      t ∈ s.jobTickets d ∧ ∀ t' ∈ s.jobTickets d, t ≤ t' := by
    intro t ht
    obtain ⟨l, lane, job, hl, hlane, hjob, rfl⟩ := exists_running hwired hd ht
    refine ⟨?_, hqueued.running_le hl hlane hjob⟩
    rw [jobTickets_running hqueued.single hl hlane hjob]
    exact .head _
  have haccepted : ∀ t ∈ operationsOf (joined ++ s.handed c e), t ∈ submitted := by
    intro t ht
    rw [operationsOf_append] at ht
    cases List.mem_append.mp ht with
    | inl hold => exact h.accepted t hold
    | inr hnew => exact hqueued.queue.subset (hhead t hnew).1
  refine ⟨?_, fun t ht => List.mem_append_left _ (haccepted t ht), fun t ht => ?_⟩
  · rw [operationsOf_append, List.pairwise_append]
    refine ⟨h.ascending, List.pairwise_of_forall_mem_list fun t ht t' ht' => ?_,
      fun t ht t' ht' => ?_⟩
    · exact (hhead t ht).2 t' (hhead t' ht').1
    · exact h.before t ht t' (hhead t' ht').1
  · refine hstep.before (hqueued.bounded t (haccepted t ht)) ?_
    rw [operationsOf_append] at ht
    cases List.mem_append.mp ht with
    | inl hold => exact h.before t hold
    | inr hnew => exact (hhead t hnew).2

/-! ## Runs -/

theorem wired_go (hplain : s.Plain) (h : s.Wired) (es : List Event) : (s.go es).Wired := by
  have hstep (s : System) (e : Event) (h : s.Plain ∧ s.Wired) :
      (s.after e).Plain ∧ (s.after e).Wired :=
    ⟨(step_after h.1 e).2, wired_after h.1 h.2 e⟩
  exact (inv_go (fun s => s.Plain ∧ s.Wired) hstep ⟨hplain, h⟩ es).2

section Runs

variable {config : Config} {s₀ : System} (hnew : System.new config = .ok s₀)
include hnew

theorem recorded_new (c : ConnectionId) : s₀.Recorded c [] := by
  cases eq_of_new hnew
  refine ⟨fun conn hconn => ?_, fun _ => rfl⟩
  cases hconn

theorem marked_go (es : List Event) (hstays : s₀.StaysAttached d es)
    (hd : (s₀.go es).deviceOf? c = some d) :
    (s₀.go es).Marked d (s₀.submittedIn d es) (s₀.handedIn c es) := by
  have hplain := plain_new hnew
  induction es using List.reverseRecOn with
  | nil => exact marked_nil
  | append_singleton es e ih =>
      obtain ⟨hes, he⟩ := staysAttached_concat.mp hstays
      have hqueued := (queued_new hnew d).go hplain es hes
      have hwired := wired_go hplain (wired_new hnew) es
      have hrecorded := (recorded_new hnew c).go hplain es
      rw [go_concat] at he hd ⊢
      rw [submittedIn_concat, handedIn_concat]
      cases hc : (s₀.go es).connections[c]? with
      | none =>
          rw [hrecorded.unopened hc, handed, hc]
          exact marked_nil
      | some conn =>
          have hd₀ : (s₀.go es).deviceOf? c = some conn.device := by
            rw [deviceOf?, hc, Option.map_some]
          cases (deviceOf?_after (plain_go hplain es) e hd₀).symm.trans hd
          exact (ih hes hd₀).after (plain_go hplain es) hwired hqueued hd₀ e he

/-- As long as a device stays attached, its messages reach the wire operation by
operation, in the order in which the operations were accepted, and none is handed over
before all operations that were accepted earlier have results. -/
theorem operations_in_order (es : List Event) (hstays : s₀.StaysAttached d es) :
    (s₀.submittedIn d es).Pairwise (· < ·) ∧
      (∀ c conn, (s₀.go es).connections[c]? = some conn → conn.device = d →
        ∃ written, written.Sublist (s₀.handedIn c es) ∧
          written.map (fun m => conn.codec.write m.2) = conn.wire.sent.map .ok ∧
          (∀ t ∈ operationsOf written, t ∈ s₀.submittedIn d es) ∧
          (operationsOf written).Pairwise (· ≤ ·)) ∧
      ∀ c e, (s₀.go es).deviceOf? c = some d →
        ∀ t ∈ operationsOf ((s₀.go es).handed c e), ∀ t' ∈ s₀.submittedIn d es, t' < t →
          ((s₀.go es).jobResult? t').isSome := by
  have hplain := plain_new hnew
  have hqueued := (queued_new hnew d).go hplain es hstays
  refine ⟨hqueued.ascending, fun c conn hc hd => ?_, fun c e hd t ht t' ht' hlt => ?_⟩
  · obtain ⟨L, hL⟩ := ((recorded_new hnew c).go hplain es).ledger conn hc
    have hmarked := marked_go hnew es hstays (c := c) (d := d) (by rw [deviceOf?, hc, ← hd]; rfl)
    have hsub := (List.sublist_append_left _ _).trans hL.order
    have hoperations := hsub.filterMap Prod.fst
    refine ⟨L.written, hsub, hL.onWire, fun t ht => ?_, hmarked.ascending.sublist hoperations⟩
    exact hmarked.accepted t (hoperations.subset ht)
  · have hwired := wired_go hplain (wired_new hnew) es
    obtain ⟨l, lane, job, hl, hlane, hjob, rfl⟩ := exists_running hwired hd ht
    exact hqueued.settled_before hl hlane hjob ht' hlt

end Runs

/-! ## Two barriers -/

namespace Barriers

/-- The device. -/
def device : DeviceId := ⟨"openflow:1"⟩

/-- Two barriers are asked for, and the second is sent when the first was answered. -/
def run : List Event :=
  [.openConnection device .confirming 64, .attach 0, .submit (.barrier device) false,
    .submit (.barrier device) false, .startJob 0, .stepJob 0, .writer 0, .writer 0,
    .receive 0 [0], .stepJob 0, .stepJob 0, .startJob 0, .stepJob 0, .writer 0, .writer 0]

end Barriers

theorem operations_in_order_of_barriers :
    ∃ s₀, System.new {} = .ok s₀ ∧ s₀.StaysAttached Barriers.device Barriers.run ∧
      s₀.submittedIn Barriers.device Barriers.run = [0, 1] ∧
      ∃ conn written, (s₀.go Barriers.run).connections[0]? = some conn ∧
        conn.wire.sent = [[0], [0, 0]] ∧ written.Sublist (s₀.handedIn 0 Barriers.run) ∧
        written.map (fun m => conn.codec.write m.2) = conn.wire.sent.map .ok ∧
        (operationsOf written).Pairwise (· ≤ ·) := by
  let s₀ := start
  have hnew : System.new {} = .ok s₀ := rfl
  have hstays : s₀.StaysAttached Barriers.device Barriers.run := by decide
  have hrun : ((s₀.go Barriers.run).connections[0]?).map (fun c => (c.device, c.wire.sent)) =
      some (Barriers.device, [[0], [0, 0]]) := by decide
  obtain ⟨conn, hc, hconn⟩ := Option.map_eq_some_iff.mp hrun
  obtain ⟨hdevice, hsent⟩ := Prod.mk.injEq .. ▸ hconn
  obtain ⟨-, hwire, -⟩ := operations_in_order hnew Barriers.run hstays
  obtain ⟨written, hsub, hframes, -, hascending⟩ := hwire 0 conn hc hdevice
  exact ⟨s₀, hnew, hstays, by decide, conn, written, hc, hsent, hsub, hframes, hascending⟩

end Southbound.System
