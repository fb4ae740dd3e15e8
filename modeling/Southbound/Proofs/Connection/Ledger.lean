import Southbound.Proofs.Connection.Run

/-!
# Where messages come from

A `Ledger` of a connection explains the messages on its wire, in the hands of its
writer and in its queue by the places at which they joined the queue.  What is on the
wire are some of the messages that joined, in the same order.

With each message the ledger keeps a mark, which whoever keeps it may choose.  What
happens to the connection says how far each message has come then (`Ledger.follow`), so
there is always a ledger for what has joined until then (`Ledger.Explains.follow`).
-/

namespace Southbound.Connection

/-- Marked messages, and how far they have come. -/
structure Ledger (μ : Type) where
  written : List (μ × Envelope) := []
  /-- The message that the writer holds, if it holds one. -/
  held : List (μ × Envelope) := []
  waiting : List (μ × Envelope) := []

variable {μ : Type}

/-- All messages of a ledger. -/
def Ledger.messages (L : Ledger μ) : List (μ × Envelope) := L.written ++ (L.held ++ L.waiting)

/-- What joins the queue between two states, each message with its mark. -/
def joining (mark : Envelope → μ) (c c' : Connection) : List (μ × Envelope) :=
  (c'.outbound.drop c.outbound.length).map fun e => (mark e, e)

/-- What joins the queue between two states, with a mark. -/
def newlyJoined (mark : μ) (c c' : Connection) : List (μ × Envelope) :=
  (c'.outbound.drop c.outbound.length).map fun e => (mark, e)

theorem joining_eq_nil (mark : Envelope → μ) {c c' : Connection}
    (h : c'.outbound.length ≤ c.outbound.length) : joining mark c c' = [] := by
  rw [joining, List.drop_eq_nil_of_le h]
  rfl

namespace Ledger

/-- A ledger that is right about a connection whose queue these messages joined. -/
structure Explains (L : Ledger μ) (c : Connection) (joined : List (μ × Envelope)) : Prop where
  /-- The messages joined the queue in this order. -/
  order : (L.written ++ (L.held ++ L.waiting)).Sublist joined
  /-- The frames on the wire are those of the messages on the wire. -/
  onWire : L.written.map (fun m => c.codec.write m.2) = c.wire.sent.map .ok
  /-- A frame that the writer holds is that of the message that it holds. -/
  inHand : ∀ f, c.writer = .holding f → L.held.map (fun m => c.codec.write m.2) = [.ok f]
  /-- The messages in the queue are those that wait. -/
  inQueue : L.waiting.map Prod.snd = c.outbound

variable {L : Ledger μ} {c c' : Connection} {joined : List (μ × Envelope)}

theorem explains_empty (hq : c.outbound = []) (hw : c.writer = .idle) (hs : c.wire.sent = []) :
    ({} : Ledger μ).Explains c [] where
  order := .refl _
  onWire := by rw [hs]; rfl
  inHand f hf := by rw [hw] at hf; cases hf
  inQueue := hq.symm

/-- The first message of the queue is the first that waits. -/
theorem Explains.exists_waiting (h : L.Explains c joined) {e : Envelope} {rest : List Envelope}
    (hq : c.outbound = e :: rest) :
    ∃ mark waiting, L.waiting = (mark, e) :: waiting ∧ waiting.map Prod.snd = rest := by
  have hw := h.inQueue
  rw [hq] at hw
  obtain ⟨m, waiting, he, hm, hrest⟩ := List.map_eq_cons_iff.mp hw
  exact ⟨m.1, waiting, by rw [he, ← hm], hrest⟩

/-- How far the messages of a ledger have come when a connection goes from one state to
another, and the messages that joined then. -/
def follow (L : Ledger μ) (mark : Envelope → μ) (c c' : Connection) : Ledger μ where
  written := L.written ++ match c.writer, c'.writer with
    | .holding _, .idle => L.held
    | _, _ => []
  held := match c.writer, c'.writer with
    | .idle, .holding _ => L.waiting.take 1
    | .holding _, .holding _ => L.held
    | _, _ => []
  waiting := L.waiting.drop (c.outbound.length - c'.outbound.length) ++ joining mark c c'

theorem written_follow_of_same (L : Ledger μ) (mark : Envelope → μ) (h : c'.writer = c.writer) :
    (L.follow mark c c').written = L.written := by
  rw [follow, h]
  cases c.writer <;> simp

/-- What is on the wire stays there. -/
theorem written_prefix_follow (L : Ledger μ) (mark : Envelope → μ) (c c' : Connection) :
    L.written <+: (L.follow mark c c').written :=
  List.prefix_append _ _

/-- A ledger goes on with the messages that it had and those that joined. -/
theorem mem_follow {mark : Envelope → μ} {m : μ × Envelope}
    (h : m ∈ (L.follow mark c c').messages) : m ∈ L.messages ∨ m ∈ joining mark c c' := by
  simp only [messages, follow, List.mem_append] at h ⊢
  rcases h with (hw | hw) | hh | hq | hq
  · exact .inl (.inl hw)
  · split at hw
    · exact .inl (.inr (.inl hw))
    · cases hw
  · split at hh
    · exact .inl (.inr (.inr (List.mem_of_mem_take hh)))
    · exact .inl (.inr (.inl hh))
    · cases hh
  · exact .inl (.inr (.inr (List.mem_of_mem_drop hq)))
  · exact .inr hq

/-- Messages join the queue, and else nothing moves. -/
theorem follow_queued (L : Ledger μ) (mark : Envelope → μ) (hq : c.outbound <+: c'.outbound)
    (hw : c'.writer = c.writer) :
    (L.follow mark c c').written = L.written ∧ (L.follow mark c c').held.Sublist L.held ∧
      (∀ f, c.writer = .holding f → (L.follow mark c c').held = L.held) ∧
      (L.follow mark c c').waiting = L.waiting ++ joining mark c c' := by
  refine ⟨L.written_follow_of_same mark hw, ?_, fun f hf => ?_, ?_⟩
  · simp only [follow, hw]
    cases c.writer <;> simp
  · simp only [follow, hw, hf]
  · obtain ⟨new, hnew⟩ := hq
    simp [follow, ← hnew]

section Waiting

variable {a : μ × Envelope} {waiting : List (μ × Envelope)} {e : Envelope}
  (hwait : L.waiting = a :: waiting) (hq : c.outbound = e :: c'.outbound)
include hwait hq

/-- The first message of the queue is passed over. -/
theorem follow_passed (mark : Envelope → μ) (hw : c'.writer = c.writer) :
    (L.follow mark c c').written = L.written ∧ (L.follow mark c c').held.Sublist L.held ∧
      (∀ f, c.writer = .holding f → (L.follow mark c c').held = L.held) ∧
      (L.follow mark c c').waiting = waiting := by
  have hnone : joining mark c c' = [] := joining_eq_nil mark (by simp [hq])
  refine ⟨L.written_follow_of_same mark hw, ?_, fun f hf => ?_, ?_⟩
  · simp only [follow, hw]
    cases c.writer <;> simp
  · simp only [follow, hw, hf]
  · simp [follow, hnone, hq, hwait]

/-- The writer takes the first message of the queue. -/
theorem follow_taken (mark : Envelope → μ) {f : Frame} (hidle : c.writer = .idle)
    (hw : c'.writer = .holding f) : L.follow mark c c' = ⟨L.written, [a], waiting⟩ := by
  have hnone : joining mark c c' = [] := joining_eq_nil mark (by simp [hq])
  simp [follow, hnone, hq, hwait, hidle, hw]

end Waiting

/-- The writer puts the message that it holds on the wire. -/
theorem follow_put (L : Ledger μ) (mark : Envelope → μ) {f : Frame}
    (hq : c'.outbound = c.outbound) (hold : c.writer = .holding f) (hw : c'.writer = .idle) :
    L.follow mark c c' = ⟨L.written ++ L.held, [], L.waiting⟩ := by
  have hnone : joining mark c c' = [] := joining_eq_nil mark (Nat.le_of_eq (congrArg _ hq))
  simp [follow, hnone, hq, hold, hw]

/-- The writer ends, and the queue is dropped. -/
theorem follow_dropped (mark : Envelope → μ) (hwait : L.waiting.map Prod.snd = c.outbound)
    (hq : c'.outbound = []) (hw : c'.writer = .stopped) :
    L.follow mark c c' = ⟨L.written, [], []⟩ := by
  have hnone : joining mark c c' = [] := joining_eq_nil mark (by simp [hq])
  simp [follow, hnone, hq, hw, ← hwait]

/-- Whatever happens to a connection, the ledger that goes on with it is right. -/
theorem Explains.follow (h : L.Explains c joined) (hs : Transit c c') (hcodec : c'.codec = c.codec)
    (mark : Envelope → μ) : (L.follow mark c c').Explains c' (joined ++ joining mark c c') := by
  cases hs with
  | queued new hq hw hsent =>
      have hnew : joining mark c c' = new.map fun e => (mark e, e) := by
        rw [joining, hq, List.drop_left]
      obtain ⟨hwritten, hheld, hsame, hwaiting⟩ := L.follow_queued mark ⟨new, hq.symm⟩ hw
      refine ⟨?_, ?_, ?_, ?_⟩
      · rw [hwritten, hwaiting, ← List.append_assoc, ← List.append_assoc,
          List.append_assoc L.written]
        refine List.Sublist.append (.trans ?_ h.order) (.refl _)
        exact (List.Sublist.refl _).append (hheld.append (.refl _))
      · rw [hwritten, hcodec, hsent]
        exact h.onWire
      · intro f hf
        have hf' : c.writer = .holding f := hw ▸ hf
        rw [hsame f hf', hcodec]
        exact h.inHand f hf'
      · rw [hwaiting, List.map_append, h.inQueue, hnew, hq]
        simp [Function.comp_def]
  | passed e hq hw hsent =>
      obtain ⟨mark', waiting, hwait, hrest⟩ := h.exists_waiting hq
      have hnone : joining mark c c' = [] := joining_eq_nil mark (by simp [hq])
      obtain ⟨hwritten, hheld, hsame, hwaiting⟩ := follow_passed hwait hq mark hw
      rw [hnone, List.append_nil]
      refine ⟨?_, ?_, ?_, hwaiting ▸ hrest⟩
      · rw [hwritten, hwaiting]
        have hsub : waiting.Sublist L.waiting := hwait ▸ List.sublist_cons_self _ _
        exact ((List.Sublist.refl _).append (hheld.append hsub)).trans h.order
      · rw [hwritten, hcodec, hsent]
        exact h.onWire
      · intro f hf
        have hf' : c.writer = .holding f := hw ▸ hf
        rw [hsame f hf', hcodec]
        exact h.inHand f hf'
  | taken e f hq hidle hwrite hw hsent =>
      obtain ⟨mark', waiting, hwait, hrest⟩ := h.exists_waiting hq
      have hnone : joining mark c c' = [] := joining_eq_nil mark (by simp [hq])
      rw [hnone, List.append_nil, follow_taken hwait hq mark hidle hw]
      refine ⟨?_, ?_, ?_, hrest⟩
      · have hsub : ([(mark', e)] ++ waiting).Sublist (L.held ++ L.waiting) := by
          rw [hwait]
          exact List.sublist_append_right _ _
        exact ((List.Sublist.refl _).append hsub).trans h.order
      · rw [hcodec, hsent]
        exact h.onWire
      · intro f' hf'
        rw [hw] at hf'
        cases hf'
        rw [hcodec]
        exact congrArg (· :: []) hwrite
  | put f hq hold hw hsent =>
      have hnone : joining mark c c' = [] := joining_eq_nil mark (Nat.le_of_eq (congrArg _ hq))
      rw [hnone, List.append_nil, L.follow_put mark hq hold hw]
      refine ⟨?_, ?_, ?_, hq ▸ h.inQueue⟩
      · have := h.order
        simpa using this
      · rw [List.map_append, hcodec, h.onWire, h.inHand f hold, hsent, List.map_append]
        rfl
      · intro f' hf'
        rw [hw] at hf'
        cases hf'
  | dropped hq hw hsent =>
      have hnone : joining mark c c' = [] := joining_eq_nil mark (by simp [hq])
      rw [hnone, List.append_nil, follow_dropped mark h.inQueue hq hw]
      refine ⟨?_, ?_, ?_, hq.symm⟩
      · rw [List.append_nil, List.append_nil]
        exact (List.sublist_append_left _ _).trans h.order
      · rw [hcodec, hsent]
        exact h.onWire
      · intro f' hf'
        rw [hw] at hf'
        cases hf'

/-- Whatever happens to a connection, what has joined its queue explains its
messages. -/
theorem Explains.step (h : L.Explains c joined) (hs : Transit c c') (hcodec : c'.codec = c.codec)
    (mark : μ) : ∃ L' : Ledger μ, L'.Explains c' (joined ++ newlyJoined mark c c') :=
  ⟨_, h.follow hs hcodec fun _ => mark⟩

end Ledger

end Southbound.Connection
