import Southbound.Proofs.System.Answers
import Southbound.Proofs.System.Trails

/-!
# Messages on the trails of their connections

A message that is sent in a run, by whoever holds a connection or by a job, is found on the
trail of its connection under the slot of its request, and no other message is
(`System.tracked_go`).  So where the answers on a connection come in turn, a message that
was answered there was put on the wire before, under the transaction id for which the
answer was waited for (`System.writtenIn_of_answer`).
-/

namespace Southbound

/-- A message was put on the wire, for the promise of its result. -/
def Promise.WrittenIn (p : Promise) (L : Trail) (m : Message) : Prop :=
  ∃ x slot, p.reply = .awaited x slot ∧ (some slot, ⟨x, m⟩) ∈ L.written

namespace System

/-- The message that is sent in an event, by whoever holds a connection or by a job. -/
def sends? (s : System) : Event → Option (Promise × Message)
  | .send c x m => (s.send c x m).map fun r => (r.1, m)
  | e => (s.asked? e).map Prod.snd

/-- The messages that are sent in a run, by whoever holds a connection or by jobs. -/
def sentIn (s : System) : List Event → List (Promise × Message)
  | [] => []
  | e :: es => (s.sends? e).toList ++ (s.after e).sentIn es

variable {s s' : System} {c : ConnectionId} {e : Event} {es : List Event} {p : Promise}
  {m : Message} {o : Outcome Message} {L : Trail}

theorem sentIn_concat (s : System) (es : List Event) (e : Event) :
    s.sentIn (es ++ [e]) = s.sentIn es ++ ((s.go es).sends? e).toList := by
  induction es generalizing s with
  | nil => simp [sentIn]
  | cons e' es ih => rw [List.cons_append, sentIn, sentIn, ih, go_cons, List.append_assoc]

/-- What is sent in an event of a run is sent in the run. -/
theorem mem_sentIn_of_sends? {es₁ es₂ : List Event} (h : (s.go es₁).sends? e = some (p, m)) :
    (p, m) ∈ s.sentIn (es₁ ++ e :: es₂) := by
  induction es₁ generalizing s with
  | nil => exact List.mem_append_left _ (Option.mem_toList.mpr h)
  | cons e' es ih => exact List.mem_append_right _ (ih h)

/-- What a job sends is sent. -/
theorem sends?_of_asked? {t : Ticket} (h : s.asked? e = some (t, p, m)) :
    s.sends? e = some (p, m) := by
  cases e with
  | send c x m' => cases h
  | _ => exact congrArg (Option.map Prod.snd) h

theorem mem_sentIn_of_mem_askedIn {t : Ticket} (h : (t, p, m) ∈ s.askedIn es) :
    (p, m) ∈ s.sentIn es := by
  induction es generalizing s with
  | nil => cases h
  | cons e es ih =>
      cases List.mem_append.mp h with
      | inl hnow =>
          refine List.mem_append_left _ (Option.mem_toList.mpr ?_)
          exact sends?_of_asked? (Option.mem_toList.mp hnow)
      | inr hlater => exact List.mem_append_right _ (ih hlater)

/-! ## One message -/

/-- A message is sent on its connection between two states. -/
def SentOver (s s' : System) (p : Promise) (m : Message) : Prop :=
  ∃ (conn conn₀ : Connection) (x : Xid), s.connections[p.connection]? = some conn ∧
    conn₀.registry.slots = conn.registry.slots ∧ conn₀.outbound = conn.outbound ∧
    p.reply = (conn₀.send s.now x m).1 ∧
    s'.connections[p.connection]? = some (conn₀.send s.now x m).2

theorem sentOver_of_send {x : Option Xid} (h : s.send c x m = some (p, s')) :
    s.SentOver s' p m := by
  obtain ⟨conn, hc, he⟩ := Option.map_eq_some_iff.mp h
  have hmodify (conn' : Connection) :
      (s.connections.modify c fun _ => conn')[c]? = some conn' := by
    rw [List.getElem?_modify_eq, hc]
    rfl
  cases x with
  | some x =>
      cases he
      exact ⟨conn, conn, x, hc, rfl, rfl, rfl, hmodify _⟩
  | none =>
      cases he
      obtain ⟨cursor, hallocate⟩ := TransactionRegistry.allocate_snd conn.registry
      have hslots : conn.allocate.2.registry.slots = conn.registry.slots := by
        show conn.registry.allocate.2.slots = _
        rw [hallocate]
      exact ⟨conn, conn.allocate.2, conn.allocate.1, hc, hslots, rfl, rfl, hmodify _⟩

theorem sentOver_of_sends? (h : s.sends? e = some (p, m)) : s.SentOver (s.after e) p m := by
  cases e with
  | send c x m' =>
      obtain ⟨⟨p', s₁⟩, hsend, he⟩ := Option.map_eq_some_iff.mp h
      cases he
      have hafter : (s.after (.send c x m)).connections = s₁.connections := by
        simp only [after, beginSend?, hsend, Option.map_some, Option.getD_some, begin]
      rw [SentOver, hafter]
      exact sentOver_of_send hsend
  | stepJob l =>
      obtain ⟨⟨t, p', m'⟩, hasked, he⟩ := Option.map_eq_some_iff.mp h
      cases he
      obtain ⟨lane, hlane, hasked⟩ := Option.bind_eq_some_iff.mp hasked
      have hget : s.pipeline.lanes.get? l = some lane := hlane
      split at hasked
      · next t' c m' next hjob =>
          obtain ⟨⟨p', s₁⟩, hsend, he⟩ := Option.map_eq_some_iff.mp hasked
          cases he
          have hafter : (s.after (.stepJob l)).connections = s₁.connections := by
            simp [after, stepJob, hget, hjob, stepProgram, perform, hsend, suspendJob]
          rw [SentOver, hafter]
          exact sentOver_of_send hsend
      · cases hasked
  | _ => cases h

/-- Each slot on a trail was opened on its connection. -/
def Opened (s : System) (c : ConnectionId) (L : Trail) : Prop :=
  ∀ slot envelope, (some slot, envelope) ∈ L.messages →
    ∃ conn, s.connections[c]? = some conn ∧ slot < conn.registry.slots

/-- The result of a message has a slot, under which the trail has no other message, or it was
known at once and is no answer. -/
def Tracked (s : System) (L : Trail) (p : Promise) (m : Message) : Prop :=
  (∃ x cause, p.reply = .failed x cause ∧ isAnswer (.error cause) = false) ∨
    ∃ x slot conn, p.reply = .awaited x slot ∧ s.connections[p.connection]? = some conn ∧
      slot < conn.registry.slots ∧
      ∀ envelope, (some slot, envelope) ∈ L.messages → envelope = ⟨x, m⟩

/-- What joins a trail in an event has a new slot. -/
theorem mem_trail (hserved : s.Served) {conn : Connection} (hc : s.connections[c]? = some conn)
    {slot : Slot} {envelope : Envelope} (h : (some slot, envelope) ∈ (s.trail c L e).messages) :
    ∃ conn', (s.after e).connections[c]? = some conn' ∧
      conn.registry.slots ≤ conn'.registry.slots ∧ ((some slot, envelope) ∈ L.messages ∨
        conn.registry.slots ≤ slot ∧ slot < conn'.registry.slots ∧
          (some slot, envelope) ∈
            Connection.joining (Connection.requestOf? conn conn') conn conn') := by
  obtain ⟨conn', hc', hround⟩ := exists_round hserved.plain e hc
  rw [trail, hc, hc'] at h
  refine ⟨conn', hc', hround.slots_le, (Connection.Ledger.mem_follow h).imp_right fun hnew => ?_⟩
  obtain ⟨e', -, he'⟩ := List.mem_map.mp hnew
  obtain ⟨hmark, -⟩ := Prod.mk.inj he'
  obtain ⟨hle, hlt⟩ := Connection.slot_of_requestOf? hmark
    (hround.accounted (hserved.accounted c conn hc)).sound
  exact ⟨hle, hlt, hnew⟩

theorem trail_of_none (hc : s.connections[c]? = none) : s.trail c L e = L := by rw [trail, hc]

theorem Opened.after (hserved : s.Served) (h : s.Opened c L) (e : Event) :
    (s.after e).Opened c (s.trail c L e) := by
  intro slot envelope hmem
  cases hc : s.connections[c]? with
  | none =>
      rw [trail_of_none hc] at hmem
      obtain ⟨conn, hconn, -⟩ := h slot envelope hmem
      cases hc.symm.trans hconn
  | some conn =>
      obtain ⟨conn', hc', hslots, hold | ⟨-, hlt, -⟩⟩ := mem_trail hserved hc hmem
      · obtain ⟨conn₀, hconn₀, hlt⟩ := h slot envelope hold
        cases hc.symm.trans hconn₀
        exact ⟨conn', hc', Nat.lt_of_lt_of_le hlt hslots⟩
      · exact ⟨conn', hc', hlt⟩

/-- A message that was sent stays the only one under its slot. -/
theorem Tracked.after (hserved : s.Served) (h : s.Tracked L p m) (e : Event) :
    (s.after e).Tracked (s.trail p.connection L e) p m := by
  refine h.imp_right fun ⟨x, slot, conn, hreply, hc, hlt, honly⟩ => ?_
  obtain ⟨conn', hc', hround⟩ := exists_round hserved.plain e hc
  refine ⟨x, slot, conn', hreply, hc', Nat.lt_of_lt_of_le hlt hround.slots_le,
    fun envelope hmem => ?_⟩
  obtain ⟨-, -, -, hold | ⟨hle, -⟩⟩ := mem_trail hserved hc hmem
  · exact honly envelope hold
  · exact absurd hlt (Nat.not_lt.mpr hle)

/-- A message that has just been sent is the only one under its slot. -/
theorem tracked_of_sends? (hserved : s.Served) (hopened : s.Opened p.connection L)
    (h : s.sends? e = some (p, m)) : (s.after e).Tracked (s.trail p.connection L e) p m := by
  obtain ⟨conn, conn₀, x, hc, hslots, hqueue, hreply, hc'⟩ := sentOver_of_sends? h
  rcases conn₀.reply_send s.now x m with hawaited | ⟨cause, hfailed, hno, -⟩
  · have hlt := conn₀.opened_send s.now x m
    rw [hawaited] at hlt
    refine .inr ⟨x, _, _, hreply.trans hawaited, hc', hlt, fun envelope hmem => ?_⟩
    obtain ⟨conn', hconn', -, hold | ⟨-, -, hnew⟩⟩ := mem_trail hserved hc hmem
    · obtain ⟨conn₁, hconn₁, hlt₁⟩ := hopened _ envelope hold
      cases hc.symm.trans hconn₁
      exact absurd hlt₁ (hslots ▸ Nat.lt_irrefl _)
    · cases hc'.symm.trans hconn'
      rw [Connection.joining, ← hqueue] at hnew
      exact Connection.mem_joining_send hnew
  · exact .inl ⟨x, cause, hreply.trans hfailed, hno⟩

/-! ## Runs -/

section Runs

variable {config : Config} {s₀ : System} (hnew : System.new config = .ok s₀)
include hnew

theorem opened_go (c : ConnectionId) (es : List Event) :
    (s₀.go es).Opened c (s₀.trailIn c {} es) := by
  induction es using List.reverseRecOn with
  | nil => exact fun slot envelope hmem => by cases hmem
  | append_singleton es e ih =>
      rw [go_concat, trailIn_concat]
      exact ih.after ((served_new hnew).go es) e

/-- A message that is sent in a run is found under its slot, and no other is. -/
theorem tracked_go (h : (p, m) ∈ s₀.sentIn es) :
    (s₀.go es).Tracked (s₀.trailIn p.connection {} es) p m := by
  induction es using List.reverseRecOn with
  | nil => cases h
  | append_singleton es e ih =>
      rw [sentIn_concat] at h
      rw [go_concat, trailIn_concat]
      cases List.mem_append.mp h with
      | inl hold => exact (ih hold).after ((served_new hnew).go es) e
      | inr hnow =>
          exact tracked_of_sends? ((served_new hnew).go es) (opened_go hnew p.connection es)
            (Option.mem_toList.mp hnow)

/-- Where the answers come in turn, a message that is answered was put on the wire. -/
theorem writtenIn_of_answer (hcodecs : ∀ d codec n, .openConnection d codec n ∈ es → codec.Candid)
    (hsent : (p, m) ∈ s₀.sentIn es) (hturn : s₀.AnswersInTurn p.connection {} es)
    (ho : (s₀.go es).result? p = some o) (hanswer : isAnswer o = true) :
    p.WrittenIn (s₀.trailIn p.connection {} es) m := by
  obtain ⟨c, reply⟩ := p
  rcases tracked_go hnew hsent with ⟨x, cause, hreply, hno⟩ | ⟨x, slot, conn, hreply, hc, -, honly⟩
  · cases hreply
    obtain ⟨conn, -, ho⟩ := Option.bind_eq_some_iff.mp ho
    cases ho
    rw [hno] at hanswer
    cases hanswer
  · cases hreply
    obtain ⟨conn', hc', hmem⟩ := (result?_awaited ((served_new hnew).go es).accounted).mp ho
    obtain ⟨⟨_, envelope⟩, hwritten, rfl⟩ :=
      List.mem_map.mp (founded_go hnew hcodecs hturn conn' hc' _ hmem hanswer)
    cases honly envelope (List.mem_append_left _ hwritten)
    exact ⟨x, slot, rfl, hwritten⟩

end Runs

end System

end Southbound
