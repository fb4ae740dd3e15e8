import Southbound.Proofs.System.Frames
import Southbound.Proofs.System.Sessions

/-!
# Answers and the frames that they presuppose

In a run each connection has a *trail*: a ledger of the messages that joined its queue,
each under the slot of its request, with how far it has come (`System.trailIn`).  The trail
reads the states of the connection, and nothing in the system reads the trail.

The answers on a connection come in turn if each frame from the device that answers a
request comes after the frame with the message of that request was put on the wire
(`System.AnswersInTurn`).  Then every answer presupposes a frame, and otherwise one does
not (`System.answersInTurn_iff`).  Nothing else in the system makes an answer.
-/

namespace Southbound

/-- A ledger in which each message is marked with the slot of its request. -/
abbrev Trail := Connection.Ledger (Option Slot)

/-- The message of the request with a slot was put on the wire. -/
def Connection.Ledger.Wrote (L : Trail) (slot : Slot) : Prop := some slot ∈ L.written.map Prod.fst

instance (L : Trail) (slot : Slot) : Decidable (L.Wrote slot) :=
  inferInstanceAs (Decidable (_ ∈ _))

namespace System

/-! ## Trails -/

/-- The trail of a connection goes on in an event. -/
def trail (s : System) (c : ConnectionId) (L : Trail) (e : Event) : Trail :=
  match s.connections[c]?, (s.after e).connections[c]? with
  | some conn, some conn' => L.follow (Connection.requestOf? conn conn') conn conn'
  | _, _ => L

/-- The trail of a connection goes on in a run. -/
def trailIn (s : System) (c : ConnectionId) (L : Trail) : List Event → Trail
  | [] => L
  | e :: es => (s.after e).trailIn c (s.trail c L e) es

/-- A run in which a frame from the device of a connection answers a request only after the
message of the request was put on the wire. -/
def AnswersInTurn (s : System) (c : ConnectionId) (L : Trail) : List Event → Prop
  | [] => True
  | e :: es =>
    (∀ slot ∈ s.answers? c e, L.Wrote slot) ∧ (s.after e).AnswersInTurn c (s.trail c L e) es

instance decidableAnswersInTurn : (s : System) → (c : ConnectionId) → (L : Trail) →
    (es : List Event) → Decidable (s.AnswersInTurn c L es)
  | _, _, _, [] => isTrue trivial
  | s, c, L, e :: es =>
    have := decidableAnswersInTurn (s.after e) c (s.trail c L e) es
    inferInstanceAs (Decidable (_ ∧ _))

variable {s s' : System} {c : ConnectionId} {L : Trail} {e : Event} {es : List Event} {slot : Slot}
  {x : Xid} {o : Outcome Message}

theorem trailIn_concat (s : System) (c : ConnectionId) (L : Trail) (es : List Event) (e : Event) :
    s.trailIn c L (es ++ [e]) = (s.go es).trail c (s.trailIn c L es) e := by
  induction es generalizing s L with
  | nil => rfl
  | cons e' es ih => exact ih (s.after e') (s.trail c L e')

theorem answersInTurn_concat : s.AnswersInTurn c L (es ++ [e]) ↔
    s.AnswersInTurn c L es ∧ ∀ slot ∈ (s.go es).answers? c e, (s.trailIn c L es).Wrote slot := by
  induction es generalizing s L with
  | nil => simp [AnswersInTurn, trailIn]
  | cons e' es ih =>
      rw [List.cons_append, AnswersInTurn, ih, ← and_assoc]
      rfl

/-- What was put on the wire stays there. -/
theorem wrote_trail (h : L.Wrote slot) (e : Event) : (s.trail c L e).Wrote slot := by
  rw [trail]
  split
  · exact ((L.written_prefix_follow ..).sublist.map Prod.fst).subset h
  · exact h

/-- A frame from the device puts nothing on the wire. -/
theorem wrote_of_answers? (h : s.answers? c e = some slot) (hw : (s.trail c L e).Wrote slot) :
    L.Wrote slot := by
  cases e with
  | receive c' f =>
      obtain ⟨rfl, hslot⟩ := Option.ite_none_right_eq_some.mp h
      obtain ⟨conn, hc, -⟩ := Option.bind_eq_some_iff.mp hslot
      have hc' : (s.after (.receive c' f)).connections[c']? = some (conn.receive f) := by
        show (s.connections.modify c' (·.receive f))[c']? = _
        rw [List.getElem?_modify_eq, hc]
        rfl
      rw [trail, hc, hc', Connection.Ledger.Wrote,
        L.written_follow_of_same _ (conn.writer_receive f)] at hw
      exact hw
  | _ => cases h

/-! ## Frames on the wire -/

/-- A trail that is right about its connection. -/
def Explained (s : System) (c : ConnectionId) (L : Trail) : Prop :=
  match s.connections[c]? with
  | some conn => ∃ joined, L.Explains conn joined
  | none => L = {}

theorem Explained.after (hplain : s.Plain) (h : s.Explained c L) (e : Event) :
    (s.after e).Explained c (s.trail c L e) := by
  rw [Explained] at h
  cases hc : s.connections[c]? with
  | some conn =>
      obtain ⟨conn', hc', hround⟩ := exists_round hplain e hc
      rw [hc] at h
      obtain ⟨joined, hL⟩ := h
      rw [Explained, trail, hc, hc']
      exact ⟨_, hL.follow hround.transit hround.same.codec _⟩
  | none =>
      rw [hc] at h
      cases h
      rw [Explained, trail, hc]
      split
      · next conn' hc' =>
          obtain ⟨d, codec, n, hopen⟩ := opened_of_none hplain e hc hc'
          rw [Connection.eq_of_open hopen]
          exact ⟨[], Connection.Ledger.explains_empty rfl rfl rfl⟩
      · rfl

/-! ## Answers -/

/-- Every request on a connection that was answered was written before. -/
def Founded (s : System) (c : ConnectionId) (L : Trail) : Prop :=
  ∀ conn, s.connections[c]? = some conn →
    ∀ a ∈ conn.registry.settled, isAnswer a.2 = true → L.Wrote a.1

/-- A request is answered by a frame that arrives from the device, or it was answered
before. -/
theorem answered_after {conn' : Connection} (hplain : s.Plain)
    (hcodec : ∀ conn, s.connections[c]? = some conn → conn.codec.Candid) (e : Event)
    (hc' : (s.after e).connections[c]? = some conn') {a : Slot × Outcome Message}
    (ha : a ∈ conn'.registry.settled) (hanswer : isAnswer a.2 = true) :
    s.answers? c e = some a.1 ∨
      ∃ conn, s.connections[c]? = some conn ∧ a ∈ conn.registry.settled := by
  cases came_after hplain e hc' with
  | opened hc hopen =>
      rw [Connection.eq_of_open hopen] at ha
      cases ha
  | unprompted hc hconn _ => exact .inr ⟨_, hc, hconn.unanswered (hcodec _ hc) a ha hanswer⟩
  | @received conn f hc hconn =>
      subst hconn
      rcases conn.settled_receive f with ⟨hsame, -⟩ | ⟨slot, o, hslot, -, hsettled⟩
      · exact .inr ⟨conn, hc, hsame ▸ ha⟩
      · rw [hsettled] at ha
        cases List.mem_cons.mp ha with
        | inr hold => exact .inr ⟨conn, hc, hold⟩
        | inl hnew =>
            subst hnew
            left
            rw [answers?, if_pos rfl, hc, Option.bind_some, hslot]

/-- If the next answer comes in turn, every answer still presupposes a frame. -/
theorem Founded.after (hplain : s.Plain)
    (hcodec : ∀ conn, s.connections[c]? = some conn → conn.codec.Candid) (h : s.Founded c L)
    (hturn : ∀ slot ∈ s.answers? c e, L.Wrote slot) :
    (s.after e).Founded c (s.trail c L e) := by
  intro conn' hc' a ha hanswer
  rcases answered_after hplain hcodec e hc' ha hanswer with hnow | ⟨conn, hc, hold⟩
  · exact wrote_trail (hturn a.1 hnow) e
  · exact wrote_trail (h conn hc a hold hanswer) e

/-- A frame that answers a request gives it an answer. -/
theorem exists_answer (h : s.answers? c e = some slot) :
    ∃ conn' o, (s.after e).connections[c]? = some conn' ∧ (slot, o) ∈ conn'.registry.settled ∧
      isAnswer o = true := by
  cases e with
  | receive c' f =>
      obtain ⟨rfl, hslot⟩ := Option.ite_none_right_eq_some.mp h
      obtain ⟨conn, hc, hf⟩ := Option.bind_eq_some_iff.mp hslot
      have hc' : (s.after (.receive c' f)).connections[c']? = some (conn.receive f) := by
        show (s.connections.modify c' (·.receive f))[c']? = _
        rw [List.getElem?_modify_eq, hc]
        rfl
      rcases conn.settled_receive f with ⟨-, hnone⟩ | ⟨slot', o, hslot', hanswer, hsettled⟩
      · cases hnone.symm.trans hf
      · cases hslot'.symm.trans hf
        exact ⟨_, o, hc', hsettled ▸ List.mem_cons_self, hanswer⟩
  | _ => cases h

theorem result?_awaited (haccounted : s.Accounted) : s.result? ⟨c, .awaited x slot⟩ = some o ↔
    ∃ conn, s.connections[c]? = some conn ∧ (slot, o) ∈ conn.registry.settled := by
  rw [result?, Option.bind_eq_some_iff]
  constructor
  · rintro ⟨conn, hc, ho⟩
    exact ⟨conn, hc, (haccounted c conn hc).sound.result?_eq_some_iff.mp ho⟩
  · rintro ⟨conn, hc, ho⟩
    exact ⟨conn, hc, (haccounted c conn hc).sound.result?_eq_some_iff.mpr ho⟩

/-! ## Runs -/

section Runs

variable {config : Config} {s₀ : System} (hnew : System.new config = .ok s₀)
include hnew

theorem explained_go (c : ConnectionId) (es : List Event) :
    (s₀.go es).Explained c (s₀.trailIn c {} es) := by
  induction es using List.reverseRecOn with
  | nil =>
      cases eq_of_new hnew
      rfl
  | append_singleton es e ih =>
      rw [go_concat, trailIn_concat]
      exact ih.after (plain_go (plain_new hnew) es) e

/-- Connections keep the codecs with which they were opened. -/
theorem candid_go (hcodecs : ∀ d codec n, .openConnection d codec n ∈ es → codec.Candid)
    {conn : Connection} (hc : (s₀.go es).connections[c]? = some conn) : conn.codec.Candid := by
  induction es using List.reverseRecOn generalizing conn with
  | nil =>
      cases eq_of_new hnew
      cases hc
  | append_singleton es e ih =>
      have hplain := plain_go (plain_new hnew) es
      have hold {conn : Connection} (hc : (s₀.go es).connections[c]? = some conn) :=
        ih (fun d codec n hmem => hcodecs d codec n (List.mem_append_left _ hmem)) hc
      rw [go_concat] at hc
      cases hc₀ : (s₀.go es).connections[c]? with
      | some conn₀ =>
          obtain ⟨conn', hc', hround⟩ := exists_round hplain e hc₀
          cases hc.symm.trans hc'
          exact hround.same.codec ▸ hold hc₀
      | none =>
          cases came_after hplain e hc with
          | opened _ hopen =>
              rw [Connection.eq_of_open hopen]
              exact hcodecs _ _ _ List.mem_concat_self
          | received hc₁ _ => cases hc₀.symm.trans hc₁
          | unprompted hc₁ _ _ => cases hc₀.symm.trans hc₁

theorem founded_go (hcodecs : ∀ d codec n, .openConnection d codec n ∈ es → codec.Candid)
    (hturn : s₀.AnswersInTurn c {} es) : (s₀.go es).Founded c (s₀.trailIn c {} es) := by
  induction es using List.reverseRecOn with
  | nil =>
      cases eq_of_new hnew
      intro conn hc
      cases hc
  | append_singleton es e ih =>
      obtain ⟨hes, he⟩ := answersInTurn_concat.mp hturn
      have hcodecs' (d : DeviceId) (codec : Codec) (n : Nat)
          (hmem : .openConnection d codec n ∈ es) := hcodecs d codec n (List.mem_append_left _ hmem)
      rw [go_concat, trailIn_concat]
      exact (ih hcodecs' hes).after (plain_go (plain_new hnew) es)
        (fun conn hc => candid_go hnew hcodecs' hc) he

/-- The answers on a connection come in turn just if at no time a request was answered whose
message had not been put on the wire. -/
theorem answersInTurn_iff (hcodecs : ∀ d codec n, .openConnection d codec n ∈ es → codec.Candid)
    (c : ConnectionId) :
    s₀.AnswersInTurn c {} es ↔ ∀ es₁ x slot o, es₁ <+: es →
      (s₀.go es₁).result? ⟨c, .awaited x slot⟩ = some o → isAnswer o = true →
        (s₀.trailIn c {} es₁).Wrote slot := by
  induction es using List.reverseRecOn with
  | nil =>
      refine ⟨fun _ es₁ x slot o hes₁ ho _ => ?_, fun _ => trivial⟩
      cases List.prefix_nil.mp hes₁
      cases eq_of_new hnew
      cases ho
  | append_singleton es e ih =>
      have ih' := ih fun d codec n hmem => hcodecs d codec n (List.mem_append_left _ hmem)
      have haccounted (es : List Event) := ((served_new hnew).go es).accounted
      constructor
      · intro hturn es₁ x slot o hes₁ ho hanswer
        rcases List.prefix_concat_iff.mp hes₁ with rfl | hes₁
        · obtain ⟨conn, hc, hmem⟩ := (result?_awaited (haccounted _)).mp ho
          exact founded_go hnew hcodecs hturn conn hc _ hmem hanswer
        · exact ih'.mp (answersInTurn_concat.mp hturn).1 es₁ x slot o hes₁ ho hanswer
      · intro hwrote
        refine answersInTurn_concat.mpr ⟨ih'.mpr fun es₁ x slot o hes₁ =>
          hwrote es₁ x slot o (hes₁.trans (List.prefix_append ..)), fun slot hslot => ?_⟩
        obtain ⟨conn', o, hc', hmem, hanswer⟩ := exists_answer hslot
        have ho : ((s₀.go (es ++ [e])).result? ⟨c, .awaited ⟨0⟩ slot⟩) = some o := by
          refine (result?_awaited (haccounted _)).mpr ⟨conn', ?_, hmem⟩
          rw [go_concat]
          exact hc'
        have hw := hwrote _ _ slot o List.prefix_rfl ho hanswer
        rw [trailIn_concat] at hw
        exact wrote_of_answers? hslot hw

end Runs

end System

end Southbound
