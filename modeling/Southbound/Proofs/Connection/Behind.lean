import Southbound.Proofs.Connection.Answers
import Southbound.Proofs.Connection.Together
import Southbound.Proofs.Transaction.Allocation

/-!
# One message behind another

Two messages are sent one right after the other, and nothing happens in between.  Then the
second is not put on the wire without the first: either both join the queue or the second does
not, and as long as both are in the queue their requests wait, or both are settled
(`Connection.Ledger.Behind`).

This needs that the first message can be written as a frame, and that the transaction ids of
both are theirs alone as long as they are in the queue (`Connection.Ledger.Sole`).  The device
must not answer a request before its message is written, and no request may be withdrawn.
-/

namespace Southbound.Connection

namespace Ledger

/-- None of some messages is that of the request with a slot. -/
def Unmarked (ms : List (Option Slot × Envelope)) (slot : Slot) : Prop := ∀ a ∈ ms, a.1 ≠ some slot

/-- The transaction id of a message in the queue is that of no other message there, and of no
request but its own. -/
def Sole (L : Ledger (Option Slot)) (c : Connection) (slot : Slot) (x : Xid) : Prop :=
  (∀ p ∈ c.registry.pending, p.xid = x → p.slot = slot) ∧
    ∀ a ∈ L.waiting, a.2.xid = x → a.1 = some slot

instance (L : Ledger (Option Slot)) (c : Connection) (slot : Slot) (x : Xid) :
    Decidable (L.Sole c slot x) := inferInstanceAs (Decidable (_ ∧ _))

/-- How far two messages have come of which the second follows the first. -/
inductive Behind (L : Ledger (Option Slot)) (c : Connection) (slot₁ : Slot) (e₁ : Envelope)
    (slot₂ : Slot) (e₂ : Envelope) : Prop where
  | written : (some slot₁, e₁) ∈ L.written → Behind L c slot₁ e₁ slot₂ e₂
  | held {f : Frame} :
      c.writer = .holding f → (some slot₁, e₁) ∈ L.held → Unmarked L.written slot₂ →
      Behind L c slot₁ e₁ slot₂ e₂
  /-- They are in the queue one behind the other. -/
  | waiting (before after : List (Option Slot × Envelope)) :
      L.waiting = before ++ (some slot₁, e₁) :: (some slot₂, e₂) :: after →
      Unmarked (L.written ++ (L.held ++ before)) slot₁ →
      Unmarked (L.written ++ (L.held ++ before)) slot₂ →
      c.registry.Together e₁.xid slot₁ e₂.xid slot₂ → Behind L c slot₁ e₁ slot₂ e₂
  /-- The second is not in the queue, or it will be passed over. -/
  | passed :
      Unmarked (L.written ++ L.held) slot₂ →
      Unmarked L.waiting slot₂ ∨ (c.registry.result? slot₂).isSome = true →
      Behind L c slot₁ e₁ slot₂ e₂

variable {L : Ledger (Option Slot)} {c c' : Connection} {joined : List (Option Slot × Envelope)}
  {slot slot₁ slot₂ : Slot} {e₁ e₂ : Envelope} {mark : Envelope → Option Slot}
  {ms ms' : List (Option Slot × Envelope)}

theorem Unmarked.mono (h : Unmarked ms slot) (hsub : ms' ⊆ ms) : Unmarked ms' slot :=
  fun a ha => h a (hsub ha)

theorem unmarked_append : Unmarked (ms ++ ms') slot ↔ Unmarked ms slot ∧ Unmarked ms' slot :=
  List.forall_mem_append

/-- The second message is on the wire only if the first is. -/
theorem Behind.first_written (h : L.Behind c slot₁ e₁ slot₂ e₂)
    (hw : (some slot₂, e₂) ∈ L.written) : (some slot₁, e₁) ∈ L.written := by
  cases h with
  | written hfirst => exact hfirst
  | held _ _ hnot => exact absurd rfl (hnot _ hw)
  | waiting _ _ _ _ hnot _ => exact absurd rfl (hnot _ (List.mem_append_left _ hw))
  | passed hnot _ => exact absurd rfl (hnot _ (List.mem_append_left _ hw))

/-- Messages join the queue behind both, and their requests are treated alike. -/
theorem Behind.queued (h : L.Behind c slot₁ e₁ slot₂ e₂) (hq : c.outbound <+: c'.outbound)
    (hw : c'.writer = c.writer) (hnew : Unmarked (joining mark c c') slot₂)
    (htogether : Unmarked L.written slot₁ → Unmarked L.written slot₂ →
      c.registry.Together e₁.xid slot₁ e₂.xid slot₂ →
      c'.registry.Together e₁.xid slot₁ e₂.xid slot₂)
    (hresult : (c.registry.result? slot₂).isSome = true →
      (c'.registry.result? slot₂).isSome = true) :
    (L.follow mark c c').Behind c' slot₁ e₁ slot₂ e₂ := by
  obtain ⟨hwritten, hheld, hsame, hwaiting⟩ := L.follow_queued mark hq hw
  cases h with
  | written hfirst => exact .written (hwritten ▸ hfirst)
  | @held f hold hfirst hnot =>
      exact .held (hw ▸ hold) (hsame f hold ▸ hfirst) (hwritten ▸ hnot)
  | waiting before after hwait hnot₁ hnot₂ htwo =>
      have hsub : (L.follow mark c c').written ++ ((L.follow mark c c').held ++ before) ⊆
          L.written ++ (L.held ++ before) := by
        rw [hwritten]
        exact ((List.Sublist.refl _).append (hheld.append (.refl _))).subset
      refine .waiting before (after ++ joining mark c c') ?_ (hnot₁.mono hsub) (hnot₂.mono hsub)
        (htogether (unmarked_append.mp hnot₁).1 (unmarked_append.mp hnot₂).1 htwo)
      rw [hwaiting, hwait, List.append_assoc, List.cons_append, List.cons_append]
  | passed hnot hover =>
      refine .passed (hnot.mono ?_) (hover.imp (fun hqueue => ?_) hresult)
      · rw [hwritten]
        exact ((List.Sublist.refl _).append hheld).subset
      · rw [hwaiting]
        exact unmarked_append.mpr ⟨hqueue, hnew⟩

theorem Behind.still (h : L.Behind c slot₁ e₁ slot₂ e₂) :
    (L.follow mark c c).Behind c slot₁ e₁ slot₂ e₂ :=
  have hnone : joining mark c c = [] := joining_eq_nil mark (Nat.le_refl _)
  h.queued List.prefix_rfl rfl (hnone ▸ List.forall_mem_nil _) (fun _ _ => id) id

/-- A frame from the device settles no request whose message is not written. -/
theorem Behind.receive (h : L.Behind c slot₁ e₁ slot₂ e₂) (hsound : c.registry.Sound) (f : Frame)
    (hturn : ∀ slot, c.answers? f = some slot → ¬Unmarked L.written slot) :
    (L.follow mark c (c.receive f)).Behind (c.receive f) slot₁ e₁ slot₂ e₂ := by
  obtain ⟨calls, hcalls, -⟩ := byCalls_receive c none f
  have hq : c.outbound <+: (c.receive f).outbound := by
    rw [Connection.receive]
    split <;> exact List.prefix_rfl
  have hnone : joining mark c (c.receive f) = [] := by
    refine joining_eq_nil mark (Nat.le_of_eq ?_)
    rw [Connection.receive]
    split <;> rfl
  refine h.queued hq (c.writer_receive f) (hnone ▸ List.forall_mem_nil _)
    (fun hnot₁ hnot₂ htwo => ?_) (fun hresult => hcalls ▸ hsound.isSome_after hresult calls)
  rcases htwo with ⟨p₁, p₂, hp₁, hslot₁, hp₂, hslot₂, hdeadline⟩ | hsettled
  · have htwo : c.registry.Together e₁.xid slot₁ e₂.xid slot₂ :=
      .inl ⟨p₁, p₂, hp₁, hslot₁, hp₂, hslot₂, hdeadline⟩
    rw [Connection.receive]
    cases hread : c.codec.read f with
    | none => exact htwo
    | some e =>
        refine htwo.settle hsound (fun hx => ?_) (fun hx => ?_) _
        · refine hturn slot₁ ?_ hnot₁
          rw [answers?, hread, Option.bind_some, hx, hp₁, Option.map_some, hslot₁]
        · refine hturn slot₂ ?_ hnot₂
          rw [answers?, hread, Option.bind_some, hx, hp₂, Option.map_some, hslot₂]
  · exact hcalls ▸ .settled_after hsound hsettled calls

/-! ## The writer -/

theorem Behind.dropped (h : L.Behind c slot₁ e₁ slot₂ e₂) (hL : L.Explains c joined)
    (hq : c'.outbound = []) (hw : c'.writer = .stopped) :
    (L.follow mark c c').Behind c' slot₁ e₁ slot₂ e₂ := by
  rw [follow_dropped mark hL.inQueue hq hw]
  have hpassed (hnot : Unmarked L.written slot₂) :
      Behind ⟨L.written, [], []⟩ c' slot₁ e₁ slot₂ e₂ :=
    .passed (by rwa [List.append_nil]) (.inl (List.forall_mem_nil _))
  cases h with
  | written hfirst => exact .written hfirst
  | held _ _ hnot => exact hpassed hnot
  | waiting _ _ _ _ hnot _ => exact hpassed (unmarked_append.mp hnot).1
  | passed hnot _ => exact hpassed (unmarked_append.mp hnot).1

theorem Behind.put (h : L.Behind c slot₁ e₁ slot₂ e₂) {f : Frame} (hq : c'.outbound = c.outbound)
    (hold : c.writer = .holding f) (hw : c'.writer = .idle) (hsame : c'.registry = c.registry) :
    (L.follow mark c c').Behind c' slot₁ e₁ slot₂ e₂ := by
  rw [L.follow_put mark hq hold hw]
  cases h with
  | written hfirst => exact .written (List.mem_append_left _ hfirst)
  | held _ hfirst _ => exact .written (List.mem_append_right _ hfirst)
  | waiting before after hwait hnot₁ hnot₂ htwo =>
      refine .waiting before after hwait ?_ ?_ (hsame ▸ htwo)
      · simpa using hnot₁
      · simpa using hnot₂
  | passed hnot hover => exact .passed (by simpa using hnot) (hsame ▸ hover)

end Ledger

/-- What the writer does with the first message of the queue: it is passed over, it cannot be
written, or the writer holds its frame. -/
theorem takeNext_cases {c : Connection} {e : Envelope} {rest : List Envelope}
    (hq : c.outbound = e :: rest) :
    c.registry.isPending e.xid = false ∧ c.takeNext = { c with outbound := rest } ∨
    c.registry.isPending e.xid = true ∧
      ((∃ cause, c.codec.write e = .error cause ∧ c.takeNext = { c with
          outbound := rest
          registry := ((c.registry.markDispatched e.xid).2.fail e.xid cause).2 }) ∨
        ∃ f, c.codec.write e = .ok f ∧ c.takeNext = { c with
          outbound := rest
          registry := (c.registry.markDispatched e.xid).2
          writer := .holding f }) := by
  cases hpending : c.registry.isPending e.xid with
  | false =>
      left
      simp [takeNext, hq, TransactionRegistry.markDispatched, hpending]
  | true =>
      right
      have hmark : c.registry.markDispatched e.xid =
          (true, (c.registry.markDispatched e.xid).2) := by
        simp [TransactionRegistry.markDispatched, hpending]
      refine ⟨rfl, ?_⟩
      rw [takeNext, hq]
      dsimp only
      rw [hmark]
      cases c.codec.write e with
      | error cause => exact .inl ⟨cause, rfl, rfl⟩
      | ok f => exact .inr ⟨f, rfl, rfl⟩

namespace Ledger

variable {L : Ledger (Option Slot)} {c c' : Connection} {joined : List (Option Slot × Envelope)}
  {slot slot₁ slot₂ : Slot} {e₁ e₂ : Envelope} {mark : Envelope → Option Slot}
  {ms ms' : List (Option Slot × Envelope)}

/-- The request of a message that is alone with its transaction id does not wait when it has a
result. -/
theorem Sole.isPending_eq_false {x : Xid} (h : L.Sole c slot x) (hsound : c.registry.Sound)
    (hresult : (c.registry.result? slot).isSome = true) : c.registry.isPending x = false := by
  cases hpending : c.registry.isPending x with
  | false => rfl
  | true =>
      obtain ⟨p, hp⟩ := Option.isSome_iff_exists.mp hpending
      obtain ⟨hmem, hx⟩ := TransactionRegistry.mem_of_find? hp
      rw [← h.1 p hmem hx, hsound.result?_of_pending hmem] at hresult
      cases hresult

section TakeNext

variable {e : Envelope} {rest : List Envelope} {a : Option Slot × Envelope}
  {waiting : List (Option Slot × Envelope)} (hq : c.outbound = e :: rest)
  (hwait : L.waiting = a :: waiting)
include hq

/-- Requests under other transaction ids than that of the first message in the queue. -/
theorem together_takeNext (hsound : c.registry.Sound) {x₁ x₂ : Xid} (hx₁ : e.xid ≠ x₁)
    (hx₂ : e.xid ≠ x₂) (h : c.registry.Together x₁ slot₁ x₂ slot₂) :
    c.takeNext.registry.Together x₁ slot₁ x₂ slot₂ := by
  have hmarked : (c.registry.markDispatched e.xid).2.Together x₁ slot₁ x₂ slot₂ :=
    h.perform hsound (.markDispatched e.xid) (by simp [TransactionRegistry.Call.verdict?])
  rcases takeNext_cases hq with ⟨-, hnext⟩ | ⟨-, ⟨cause, -, hnext⟩ | ⟨f, -, hnext⟩⟩
  · rw [hnext]
    exact h
  · rw [hnext]
    exact hmarked.settle (hsound.markDispatched e.xid) hx₁ hx₂ _
  · rw [hnext]
    exact hmarked

include hwait

/-- The first message leaves the queue, and perhaps the writer holds it. -/
theorem follow_takeNext (mark : Envelope → Option Slot) (hidle : c.writer = .idle) :
    (L.follow mark c c.takeNext).written = L.written ∧
      (L.follow mark c c.takeNext).held ⊆ L.held ++ [a] ∧
      (L.follow mark c c.takeNext).waiting = waiting := by
  have hpassed (hq' : c.outbound = e :: c.takeNext.outbound) (hw : c.takeNext.writer = c.writer) :
      (L.follow mark c c.takeNext).written = L.written ∧
        (L.follow mark c c.takeNext).held ⊆ L.held ++ [a] ∧
          (L.follow mark c c.takeNext).waiting = waiting := by
    obtain ⟨hwritten, hheld, -, hwaiting⟩ := follow_passed hwait hq' mark hw
    exact ⟨hwritten, List.subset_append_of_subset_left _ hheld.subset, hwaiting⟩
  rcases takeNext_cases hq with ⟨-, hnext⟩ | ⟨-, ⟨cause, -, hnext⟩ | ⟨f, -, hnext⟩⟩
  · exact hpassed (by rw [hq, hnext]) (by rw [hnext])
  · exact hpassed (by rw [hq, hnext]) (by rw [hnext])
  · have hq' : c.outbound = e :: c.takeNext.outbound := by rw [hq, hnext]
    rw [follow_taken hwait hq' mark hidle (by rw [hnext])]
    exact ⟨rfl, List.subset_append_right _ _, rfl⟩

/-- The first message is the only one that can come to the writer. -/
theorem unmarked_takeNext (mark : Envelope → Option Slot) (hidle : c.writer = .idle)
    (hnot : Unmarked (L.written ++ (L.held ++ a :: ms)) slot) :
    Unmarked ((L.follow mark c c.takeNext).written ++
      ((L.follow mark c c.takeNext).held ++ ms)) slot := by
  obtain ⟨hwritten, hheld, -⟩ := follow_takeNext hq hwait mark hidle
  obtain ⟨hnever, hlater⟩ := unmarked_append.mp hnot
  obtain ⟨hunheld, hlater⟩ := unmarked_append.mp hlater
  obtain ⟨hmark, hlater⟩ := List.forall_mem_cons.mp hlater
  have hstill : Unmarked (L.follow mark c c.takeNext).held slot :=
    (unmarked_append.mpr ⟨hunheld, List.forall_mem_singleton.mpr hmark⟩).mono hheld
  exact unmarked_append.mpr ⟨hwritten ▸ hnever, unmarked_append.mpr ⟨hstill, hlater⟩⟩

/-- A message whose request does not wait is passed over. -/
theorem follow_takeNext_of_settled (mark : Envelope → Option Slot)
    (hfree : c.registry.isPending e.xid = false) :
    (L.follow mark c c.takeNext).held.Sublist L.held := by
  rcases takeNext_cases hq with ⟨-, hnext⟩ | ⟨hpending, -⟩
  · have hq' : c.outbound = e :: c.takeNext.outbound := by rw [hq, hnext]
    exact (follow_passed hwait hq' mark (by rw [hnext])).2.1
  · rw [hfree] at hpending
    cases hpending

end TakeNext

/-- The writer takes the first of two messages: it holds its frame, or it passes over both. -/
theorem behind_takeFirst {rest : List Envelope} {after : List (Option Slot × Envelope)}
    (hsound : c.registry.Sound) (hidle : c.writer = .idle) (hq : c.outbound = e₁ :: rest)
    (hwait : L.waiting = (some slot₁, e₁) :: (some slot₂, e₂) :: after)
    (hnot : Unmarked (L.written ++ L.held) slot₂)
    (htwo : c.registry.Together e₁.xid slot₁ e₂.xid slot₂)
    (hcodec : ∃ f, c.codec.write e₁ = .ok f) (hsole : L.Sole c slot₁ e₁.xid) :
    (L.follow mark c c.takeNext).Behind c.takeNext slot₁ e₁ slot₂ e₂ := by
  obtain ⟨hwritten, -, -⟩ := follow_takeNext hq hwait mark hidle
  obtain ⟨hnever, hunheld⟩ := unmarked_append.mp hnot
  rcases htwo with ⟨p₁, p₂, hp₁, -⟩ | hsettled
  · obtain ⟨f, hf⟩ := hcodec
    have hpending : c.registry.isPending e₁.xid = true := Option.isSome_iff_exists.mpr ⟨p₁, hp₁⟩
    rcases takeNext_cases hq with ⟨hno, -⟩ | ⟨-, ⟨cause, hwrite, -⟩ | ⟨f', -, hnext⟩⟩
    · cases hpending.symm.trans hno
    · cases hf.symm.trans hwrite
    · have hholds : c.takeNext.writer = .holding f' := by rw [hnext]
      have hq' : c.outbound = e₁ :: c.takeNext.outbound := by rw [hq, hnext]
      refine .held hholds ?_ (hwritten ▸ hnever)
      rw [follow_taken hwait hq' mark hidle hholds]
      exact List.mem_cons_self
  · have hfree := hsole.isPending_eq_false hsound hsettled.1
    have hsub := follow_takeNext_of_settled hq hwait mark hfree
    obtain ⟨calls, hcalls, -⟩ := byCalls_takeNext c none
    refine .passed (unmarked_append.mpr ⟨hwritten ▸ hnever, hunheld.mono hsub.subset⟩) (.inr ?_)
    exact hcalls ▸ hsound.isSome_after hsettled.2 calls

/-- The writer takes one message of the queue. -/
theorem Behind.takeNext (h : L.Behind c slot₁ e₁ slot₂ e₂) (hL : L.Explains c joined)
    (hsound : c.registry.Sound) (hidle : c.writer = .idle)
    (hcodec : ∃ f, c.codec.write e₁ = .ok f)
    (hsole₁ : ∀ e, (some slot₁, e) ∈ L.waiting → L.Sole c slot₁ e.xid)
    (hsole₂ : ∀ e, (some slot₂, e) ∈ L.waiting → L.Sole c slot₂ e.xid) :
    (L.follow mark c c.takeNext).Behind c.takeNext slot₁ e₁ slot₂ e₂ := by
  obtain ⟨calls, hcalls, -⟩ := byCalls_takeNext c none
  cases hq : c.outbound with
  | nil =>
      have hnext : c.takeNext = c := by rw [Connection.takeNext, hq]
      rw [hnext]
      exact h.still
  | cons e rest =>
      obtain ⟨mark', waiting, hwait, -⟩ := hL.exists_waiting hq
      have hin : (mark', e) ∈ L.waiting := hwait ▸ List.mem_cons_self
      obtain ⟨hwritten, -, hwaiting⟩ := follow_takeNext hq hwait mark hidle
      cases h with
      | written hfirst => exact .written (hwritten ▸ hfirst)
      | held hold _ _ => cases hidle.symm.trans hold
      | waiting before after hwait' hnot₁ hnot₂ htwo =>
          cases before with
          | nil =>
              cases hwait.symm.trans hwait'
              exact behind_takeFirst hsound hidle hq hwait (by simpa using hnot₂) htwo hcodec
                (hsole₁ e₁ hin)
          | cons a before =>
              obtain ⟨rfl, rfl⟩ := List.cons.inj (hwait.symm.trans hwait')
              have hother {slot : Slot}
                  (hnot : Unmarked (L.written ++ (L.held ++ (mark', e) :: before)) slot) :
                  mark' ≠ some slot := hnot (mark', e) (by simp)
              refine .waiting before after hwaiting (unmarked_takeNext hq hwait mark hidle hnot₁)
                (unmarked_takeNext hq hwait mark hidle hnot₂)
                (together_takeNext hq hsound (fun hx => hother hnot₁ ?_)
                  (fun hx => hother hnot₂ ?_) htwo)
              · exact (hsole₁ e₁ (by simp [hwait'])).2 _ hin hx
              · exact (hsole₂ e₂ (by simp [hwait'])).2 _ hin hx
      | passed hnot hover =>
          have hpassed (hmark : mark' ≠ some slot₂) :
              Unmarked ((L.follow mark c c.takeNext).written ++ (L.follow mark c c.takeNext).held)
                slot₂ := by
            have hnot' : Unmarked (L.written ++ (L.held ++ [(mark', e)])) slot₂ := by
              rw [← List.append_assoc]
              exact unmarked_append.mpr ⟨hnot, List.forall_mem_singleton.mpr hmark⟩
            simpa using unmarked_takeNext hq hwait mark hidle hnot'
          rcases hover with hqueue | hsettled
          · rw [hwait] at hqueue
            obtain ⟨hmark, hqueue⟩ := List.forall_mem_cons.mp hqueue
            exact .passed (hpassed hmark) (.inl (hwaiting ▸ hqueue))
          · refine .passed ?_ (.inr (hcalls ▸ hsound.isSome_after hsettled calls))
            by_cases hmark : mark' = some slot₂
            · subst hmark
              have hfree := (hsole₂ e hin).isPending_eq_false hsound hsettled
              have hsub := follow_takeNext_of_settled hq hwait mark hfree
              rw [hwritten]
              exact hnot.mono ((List.Sublist.refl _).append hsub).subset
            · exact hpassed hmark

/-- The writer goes on. -/
theorem Behind.writerStep (h : L.Behind c slot₁ e₁ slot₂ e₂) (hL : L.Explains c joined)
    (hsound : c.registry.Sound) (hcodec : ∃ f, c.codec.write e₁ = .ok f)
    (hsole₁ : ∀ e, (some slot₁, e) ∈ L.waiting → L.Sole c slot₁ e.xid)
    (hsole₂ : ∀ e, (some slot₂, e) ∈ L.waiting → L.Sole c slot₂ e.xid) (held : Bool) :
    (L.follow mark c (c.writerStep held)).Behind (c.writerStep held) slot₁ e₁ slot₂ e₂ := by
  cases hw : c.writer with
  | stopped =>
      have hstep : c.writerStep held = c := by rw [Connection.writerStep, hw]
      exact hstep.symm ▸ h.still
  | holding f =>
      rw [Connection.writerStep, hw]
      dsimp only
      split
      · exact h.dropped hL rfl rfl
      · split
        · exact h.put rfl hw rfl rfl
        · exact h.still
  | idle =>
      rw [Connection.writerStep, hw]
      dsimp only
      split
      · exact h.dropped hL rfl rfl
      · exact h.takeNext hL hsound hw hcodec hsole₁ hsole₂

end Ledger

/-! ## Two messages that are sent at once -/

/-- A message joins the queue. -/
structure Joins (c c' : Connection) (now : Instant) (x : Xid) (m : Message) : Prop where
  pending : c'.registry.pending =
    ⟨x, c.registry.slots, some (c.deadline now m), false⟩ :: c.registry.pending
  slots : c'.registry.slots = c.registry.slots + 1
  outbound : c'.outbound = c.outbound ++ [⟨x, m⟩]
  writer : c'.writer = c.writer
  deadlines : c'.deadlines = c.deadlines
  sound : c'.registry.Sound

/-- What comes of a message that is sent under a new transaction id: it fails at once, there is
no room for it, or it joins the queue. -/
inductive Sending (c : Connection) (now : Instant) (m : Message) : Reply × Connection → Prop where
  | failed {x cursor : Xid} {cause : Failure} :
      c.connected = false ∨ UInt32.size ≤ c.registry.pending.length →
      Sending c now m (.failed x cause, { c with registry := { c.registry with cursor } })
  | refused {x : Xid} {registry : TransactionRegistry} :
      c.connected = true → c.registry.isPending x = false →
      c.writer = .stopped ∨ c.capacity ≤ c.outbound.length →
      registry.slots = c.registry.slots + 1 → registry.Sound →
      Sending c now m (.awaited x c.registry.slots, { c with registry })
  | queued {x : Xid} {c' : Connection} :
      c.connected = true → c.registry.isPending x = false →
      c.writer ≠ .stopped → c.outbound.length < c.capacity → Joins c c' now x m →
      Sending c now m (.awaited x c.registry.slots, c')

theorem sending {c : Connection} (hsound : c.registry.Sound) (now : Instant) (m : Message) :
    Sending c now m (c.allocate.2.send now c.allocate.1 m) := by
  obtain ⟨cursor, hallocate⟩ := TransactionRegistry.allocate_snd c.registry
  have hsound' := hsound.allocate
  have hc : c.allocate =
      (c.registry.allocate.1, { c with registry := { c.registry with cursor } }) := by
    rw [allocate, ← hallocate]
  rw [hallocate] at hsound'
  rw [hc]
  generalize hx : c.registry.allocate.1 = x
  rw [send]
  dsimp only
  split
  · next hup =>
      have hsame : ({ c.registry with cursor } : TransactionRegistry).isPending x =
          c.registry.isPending x := rfl
      have hregistered := hsound'.register x (some (c.deadline now m))
      simp only [TransactionRegistry.register, hsame] at hregistered ⊢
      cases hpending : c.registry.isPending x with
      | true =>
          -- An id that has a request is given out only if all have.
          refine .failed (.inr (Nat.not_lt.mp fun hids => ?_))
          cases hpending.symm.trans (hx ▸ TransactionRegistry.isPending_allocate hids)
      | false =>
          rw [hpending] at hregistered
          simp only [Bool.false_eq_true, if_false] at hregistered ⊢
          rw [refusal?]
          split
          · next cause hcause =>
              refine .refused hup hpending ?_ ?_ (hregistered.settle x (.error cause))
              · split at hcause
                · next hstopped => exact .inl hstopped
                · split at hcause
                  · next hfull => exact .inr hfull
                  · cases hcause
              · exact TransactionRegistry.slots_perform { c.registry with
                  cursor
                  pending := ⟨x, c.registry.slots, some (c.deadline now m), false⟩ ::
                    c.registry.pending
                  slots := c.registry.slots + 1 } (.fail x cause)
          · next hcause =>
              split at hcause
              · cases hcause
              · next hruns =>
                  split at hcause
                  · cases hcause
                  · next hroom =>
                      exact .queued hup hpending hruns (Nat.not_le.mp hroom)
                        ⟨rfl, rfl, rfl, rfl, rfl, hregistered⟩
  · next hdown => exact .failed (.inl (Bool.not_eq_true _ ▸ hdown))

namespace Ledger

variable {L : Ledger (Option Slot)} {c c₁ c₂ : Connection} {m m₁ m₂ : Message} {now : Instant}
  {reply : Reply} {x₂ : Xid} {slot₂ : Slot}

/-- The marks of a ledger are slots that were opened. -/
def Opened (L : Ledger (Option Slot)) (c : Connection) : Prop :=
  ∀ slot e, (some slot, e) ∈ L.messages → slot < c.registry.slots

theorem Opened.unmarked (h : L.Opened c) {slot : Slot} (hslot : c.registry.slots ≤ slot) :
    Unmarked L.messages slot := by
  rintro ⟨mark, e⟩ ha rfl
  exact absurd (h slot e ha) (Nat.not_lt.mpr hslot)

/-- What joins a ledger has a slot that was opened. -/
theorem Opened.follow (h : L.Opened c) (hslots : c.registry.slots ≤ c₁.registry.slots)
    (hsound : c₁.registry.Sound) : (L.follow (requestOf? c c₁) c c₁).Opened c₁ := by
  intro slot e hin
  rcases mem_follow hin with hold | hnew
  · exact Nat.lt_of_lt_of_le (h slot e hold) hslots
  · obtain ⟨e', -, heq⟩ := List.mem_map.mp hnew
    exact (slot_of_requestOf? (Prod.mk.inj heq).1 hsound).2

/-- A message that there is no room for is not on the ledger. -/
theorem behind_of_refused {slot₁ : Slot} {e₁ e₂ : Envelope} (hopened : L.Opened c)
    (hq : c₁.outbound = c.outbound) (hw : c₁.writer = c.writer) :
    (L.follow (requestOf? c c₁) c c₁).Behind c₁ slot₁ e₁ c.registry.slots e₂ := by
  have hnone : joining (requestOf? c c₁) c c₁ = [] :=
    joining_eq_nil _ (Nat.le_of_eq (congrArg _ hq))
  have hunmarked := hopened.unmarked (Nat.le_refl _)
  obtain ⟨hwritten, hheld, -, hwaiting⟩ :=
    L.follow_queued (requestOf? c c₁) (hq ▸ List.prefix_rfl) hw
  rw [messages, unmarked_append, unmarked_append] at hunmarked
  obtain ⟨hnever, hunheld, hunqueued⟩ := hunmarked
  refine .passed (unmarked_append.mpr ⟨hwritten ▸ hnever, hunheld.mono hheld.subset⟩) (.inl ?_)
  rwa [hwaiting, hnone, List.append_nil]

/-- A message that joins the queue is marked with its slot. -/
theorem follow_joins {x : Xid} (h : c.Joins c₁ now x m) :
    (L.follow (requestOf? c c₁) c c₁).written = L.written ∧
      (L.follow (requestOf? c c₁) c c₁).held.Sublist L.held ∧
      (L.follow (requestOf? c c₁) c c₁).waiting =
        L.waiting ++ [(some c.registry.slots, ⟨x, m⟩)] := by
  have hq : c.outbound <+: c₁.outbound := h.outbound ▸ List.prefix_append _ _
  obtain ⟨hwritten, hheld, -, hwaiting⟩ := L.follow_queued (requestOf? c c₁) hq h.writer
  refine ⟨hwritten, hheld, ?_⟩
  rw [hwaiting, joining, h.outbound, List.drop_left, List.map_singleton, requestOf?, h.pending]
  simp

/-- Two requests that are sent at the same moment, one right after the other, wait together. -/
theorem together_of_joins {x₁ : Xid} (hdeadline : c.deadline now m₁ = c.deadline now m₂)
    (hfirst : c.Joins c₁ now x₁ m₁) (hfree : c₁.registry.isPending x₂ = false)
    (hsecond : c₁.Joins c₂ now x₂ m₂) :
    c₂.registry.Together x₁ c.registry.slots x₂ c₁.registry.slots := by
  have hfind₁ : c₁.registry.find? x₁ =
      some ⟨x₁, c.registry.slots, some (c.deadline now m₁), false⟩ := by
    rw [TransactionRegistry.find?, hfirst.pending]
    exact List.find?_cons_of_pos (decide_eq_true rfl)
  have hne : x₁ ≠ x₂ := by
    rintro rfl
    rw [TransactionRegistry.isPending, hfind₁] at hfree
    cases hfree
  have hsame : c₁.deadline now m₂ = c.deadline now m₁ := by
    rw [hdeadline]
    unfold deadline
    rw [hfirst.deadlines]
  refine .inl ⟨⟨x₁, c.registry.slots, some (c.deadline now m₁), false⟩,
    ⟨x₂, c₁.registry.slots, some (c₁.deadline now m₂), false⟩, ?_, rfl, ?_, rfl,
    congrArg some hsame.symm⟩
  · rw [TransactionRegistry.find?, hsecond.pending,
      List.find?_cons_of_neg (by simpa using hne.symm)]
    exact hfind₁
  · rw [TransactionRegistry.find?, hsecond.pending]
    exact List.find?_cons_of_pos (decide_eq_true rfl)

/-- Of two messages that are sent one right after the other, the second follows the first. -/
theorem behind_of_sends (hsound : c.registry.Sound) (hopened : L.Opened c)
    (hdeadline : c.deadline now m₁ = c.deadline now m₂) (hfirst : Sending c now m₁ (reply, c₁))
    (hsecond : Sending c₁ now m₂ (.awaited x₂ slot₂, c₂)) :
    ∃ x₁ slot₁, reply = .awaited x₁ slot₁ ∧
      ((L.follow (requestOf? c c₁) c c₁).follow (requestOf? c₁ c₂) c₁ c₂).Behind c₂
        slot₁ ⟨x₁, m₁⟩ slot₂ ⟨x₂, m₂⟩ := by
  cases hfirst with
  | failed hwhy =>
      have hno (hup : c.connected = true) (hfree : c.registry.isPending x₂ = false) : False := by
        rcases hwhy with hdown | hfull
        · cases hup.symm.trans hdown
        · cases hfree.symm.trans (hsound.isPending_of_full hfull x₂)
      cases hsecond with
      | refused hup hfree _ _ _ => exact (hno hup hfree).elim
      | queued hup hfree _ _ => exact (hno hup hfree).elim
  | @refused x₁ registry hup hfree hwhy hslots hsound₁ =>
      refine ⟨x₁, _, rfl, ?_⟩
      have hopened₁ : (L.follow (requestOf? c { c with registry }) c { c with registry }).Opened
          { c with registry } := hopened.follow (hslots ▸ Nat.le_succ _) hsound₁
      cases hsecond with
      | refused _ _ _ _ _ => exact behind_of_refused hopened₁ rfl rfl
      | queued _ _ hruns hroom =>
          rcases hwhy with hstopped | hfull
          · exact absurd hstopped hruns
          · exact absurd hfull (Nat.not_le.mpr hroom)
  | @queued x₁ _ _ _ _ _ hjoins =>
      refine ⟨x₁, _, rfl, ?_⟩
      have hopened₁ := hopened.follow (hjoins.slots ▸ Nat.le_succ _) hjoins.sound
      have hunmarked {slot : Slot} (hslot : c.registry.slots ≤ slot) :=
        hopened.unmarked hslot
      obtain ⟨hwritten, hheld, hwaiting⟩ := follow_joins (L := L) hjoins
      generalize L.follow (requestOf? c c₁) c c₁ = L₁ at hopened₁ hwritten hheld hwaiting ⊢
      cases hsecond with
      | refused _ _ _ _ _ => exact behind_of_refused hopened₁ rfl rfl
      | queued _ hfree _ _ hjoins₂ =>
          obtain ⟨hwritten₂, hheld₂, hwaiting₂⟩ := follow_joins (L := L₁) hjoins₂
          rw [hwaiting, List.append_assoc] at hwaiting₂
          have hsub : (L₁.follow (requestOf? c₁ c₂) c₁ c₂).written ++
              ((L₁.follow (requestOf? c₁ c₂) c₁ c₂).held ++ L.waiting) ⊆ L.messages := by
            rw [hwritten₂, hwritten]
            exact ((List.Sublist.refl _).append ((hheld₂.trans hheld).append (.refl _))).subset
          exact .waiting L.waiting [] hwaiting₂ ((hunmarked (Nat.le_refl _)).mono hsub)
            ((hunmarked (hjoins.slots ▸ Nat.le_succ _)).mono hsub)
            (together_of_joins hdeadline hjoins hfree hjoins₂)

end Ledger

end Southbound.Connection
