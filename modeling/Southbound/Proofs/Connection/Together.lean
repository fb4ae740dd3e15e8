import Southbound.Proofs.Connection.Requests
import Southbound.Proofs.Connection.Tasks
import Southbound.Proofs.Transaction.Sweep

/-!
# Requests that are settled together

Two requests that were sent at one moment wait equally long.  Whatever happens to their
connection treats them alike, but for a frame that answers one of them, a withdrawal, and the
step of the writer that takes the message of one of them (`Connection.Impartial`).  So they
wait, or both have results (`TransactionRegistry.Together`).
-/

namespace Southbound

namespace TransactionRegistry

/-- Two requests wait with one deadline, or both have results. -/
def Together (r : TransactionRegistry) (x₁ : Xid) (slot₁ : Slot) (x₂ : Xid) (slot₂ : Slot) : Prop :=
  (∃ p₁ p₂, r.find? x₁ = some p₁ ∧ p₁.slot = slot₁ ∧ r.find? x₂ = some p₂ ∧ p₂.slot = slot₂ ∧
      p₁.deadline = p₂.deadline) ∨
    (r.result? slot₁).isSome = true ∧ (r.result? slot₂).isSome = true

/-- Results stay whatever is called. -/
theorem Sound.isSome_after {r : TransactionRegistry} (h : r.Sound) {slot : Slot}
    (hresult : (r.result? slot).isSome = true) (calls : List Call) :
    ((r.after calls).result? slot).isSome = true := by
  obtain ⟨o, ho⟩ := Option.isSome_iff_exists.mp hresult
  rw [h.result?_after ho calls]
  rfl

namespace Together

variable {r : TransactionRegistry} {x₁ x₂ : Xid} {slot₁ slot₂ : Slot}

theorem settled_after (h : r.Sound) (hsettled : (r.result? slot₁).isSome = true ∧
    (r.result? slot₂).isSome = true) (calls : List Call) :
    (r.after calls).Together x₁ slot₁ x₂ slot₂ :=
  .inr ⟨h.isSome_after hsettled.1 calls, h.isSome_after hsettled.2 calls⟩

/-- A call that settles both requests or neither. -/
theorem perform (hsound : r.Sound) (h : r.Together x₁ slot₁ x₂ slot₂) (call : Call)
    (hcall : ∀ b b', (call.verdict? x₁ b).isSome = (call.verdict? x₂ b').isSome) :
    (r.perform call).2.Together x₁ slot₁ x₂ slot₂ := by
  rcases h with ⟨p₁, p₂, hp₁, rfl, hp₂, rfl, hdeadline⟩ | hsettled
  · have hboth := hcall p₁.dispatched p₂.dispatched
    cases hv₁ : call.verdict? x₁ p₁.dispatched with
    | none =>
        rw [hv₁] at hboth
        have hv₂ := Option.isSome_eq_false_iff.mp hboth.symm
        exact .inl ⟨_, _, find?_perform_of_verdict? hp₁ hv₁, rfl,
          find?_perform_of_verdict? hp₂ (Option.isNone_iff_eq_none.mp hv₂), rfl, hdeadline⟩
    | some o₁ =>
        rw [hv₁] at hboth
        obtain ⟨o₂, hv₂⟩ := Option.isSome_iff_exists.mp hboth.symm
        have hsettled {x : Xid} {p : Pending} {o : Outcome Message} (hp : r.find? x = some p)
            (hv : call.verdict? x p.dispatched = some o) :
            ((r.perform call).2.result? p.slot).isSome = true := by
          rw [(hsound.perform call).result?_eq_some_iff.mpr (mem_settled_of_verdict? hp hv)]
          rfl
        exact .inr ⟨hsettled hp₁ hv₁, hsettled hp₂ hv₂⟩
  · exact settled_after hsound hsettled [call]

theorem after (hsound : r.Sound) (h : r.Together x₁ slot₁ x₂ slot₂) {calls : List Call}
    (hcalls : ∀ call ∈ calls, ∀ b b',
      (call.verdict? x₁ b).isSome = (call.verdict? x₂ b').isSome) :
    (r.after calls).Together x₁ slot₁ x₂ slot₂ := by
  induction calls generalizing r with
  | nil => exact h
  | cons call calls ih =>
      obtain ⟨hcall, hcalls⟩ := List.forall_mem_cons.mp hcalls
      exact ih (hsound.perform call) (h.perform hsound call hcall) hcalls

/-- A request under another transaction id is settled. -/
theorem settle (hsound : r.Sound) (h : r.Together x₁ slot₁ x₂ slot₂) {x : Xid}
    (hx₁ : x ≠ x₁) (hx₂ : x ≠ x₂) (o : Outcome Message) :
    (r.settle x o).2.Together x₁ slot₁ x₂ slot₂ := by
  cases o with
  | ok m => exact h.perform hsound (.resolve x m) (by simp [Call.verdict?, hx₁, hx₂])
  | error cause => exact h.perform hsound (.fail x cause) (by simp [Call.verdict?, hx₁, hx₂])

/-- Both have waited long enough, or neither has. -/
theorem sweep (hsound : r.Sound) (h : r.Together x₁ slot₁ x₂ slot₂) (now : Instant) :
    (r.sweep now).Together x₁ slot₁ x₂ slot₂ := by
  rcases h with ⟨p₁, p₂, hp₁, rfl, hp₂, rfl, hdeadline⟩ | hsettled
  · obtain ⟨hmem₁, rfl⟩ := mem_of_find? hp₁
    obtain ⟨hmem₂, rfl⟩ := mem_of_find? hp₂
    have hdue : p₁.isDue now = p₂.isDue now := by rw [Pending.isDue, hdeadline, Pending.isDue]
    cases hdue₁ : p₁.isDue now with
    | true =>
        right
        rw [hsound.result?_sweep hmem₁, hsound.result?_sweep hmem₂, ← hdue, hdue₁]
        exact ⟨rfl, rfl⟩
    | false =>
        rw [sweep_eq_after]
        refine after hsound (.inl ⟨p₁, p₂, hp₁, rfl, hp₂, rfl, hdeadline⟩) fun call hcall b b' => ?_
        obtain ⟨y, hy, rfl⟩ := List.mem_map.mp hcall
        have hne₁ : y ≠ p₁.xid := fun heq =>
          hsound.notMem_overdue hmem₁ hdue₁ (heq ▸ hy)
        have hne₂ : y ≠ p₂.xid := fun heq =>
          hsound.notMem_overdue hmem₂ (hdue ▸ hdue₁) (heq ▸ hy)
        simp [Call.verdict?, hne₁, hne₂]
  · rw [sweep_eq_after]
    exact settled_after hsound hsettled _

end Together

end TransactionRegistry

namespace Connection

open TransactionRegistry (Call)

variable {c c' c'' : Connection} {x₁ x₂ : Xid} {slot₁ slot₂ : Slot}

/-- Another message is sent. -/
theorem together_send (hsound : c.registry.Sound)
    (h : c.registry.Together x₁ slot₁ x₂ slot₂) (now : Instant) (x : Xid) (m : Message) :
    (c.send now x m).2.registry.Together x₁ slot₁ x₂ slot₂ := by
  rw [send]
  split
  · next hconnected =>
      have hregistered : (c.registry.register x (some (c.deadline now m))).2.Together x₁ slot₁ x₂
          slot₂ :=
        h.perform hsound (.register x (some (c.deadline now m))) (by simp [Call.verdict?])
      have hsound' := hsound.register x (some (c.deadline now m))
      split
      · exact h
      · next slot registry hok =>
          rw [hok] at hregistered hsound'
          split
          · next cause _ =>
              -- The transaction id was free, so it is that of neither request.
              have hfree : c.registry.isPending x = false := by
                cases hx : c.registry.isPending x with
                | false => rfl
                | true => simp [TransactionRegistry.register, hx] at hok
              rcases h with ⟨p₁, p₂, hp₁, -, hp₂, -⟩ | hsettled
              · refine hregistered.settle hsound' ?_ ?_ _
                · rintro rfl
                  simp [TransactionRegistry.isPending, hp₁] at hfree
                · rintro rfl
                  simp [TransactionRegistry.isPending, hp₂] at hfree
              · have hcalls : (c.registry.after [.register x (some (c.deadline now m)),
                    .fail x cause]).Together x₁ slot₁ x₂ slot₂ := .settled_after hsound hsettled _
                rw [TransactionRegistry.after_cons, TransactionRegistry.perform, hok] at hcalls
                exact hcalls
          · exact hregistered
  · exact h

/-! ## Impartial events -/

/-- Whether an event settles no request for itself. -/
def Event.isImpartial : Event → Bool
  | withdraw _ => false
  | receive _ => false
  | writer _ => false
  | _ => true

theorem together_after {e : Event} (he : e.isImpartial = true) (hsound : c.registry.Sound)
    (h : c.registry.Together x₁ slot₁ x₂ slot₂) :
    (c.after e).registry.Together x₁ slot₁ x₂ slot₂ := by
  cases e with
  | send now x m =>
      cases x with
      | some x => exact together_send hsound h now x m
      | none =>
          have hallocated : c.allocate.2.registry.Together x₁ slot₁ x₂ slot₂ :=
            h.perform hsound .allocate (by simp [Call.verdict?])
          exact together_send hsound.allocate hallocated now c.allocate.1 m
  | withdraw reply => cases he
  | receive f => cases he
  | writer held => cases he
  | disconnect =>
      show c.disconnect.registry.Together ..
      rw [disconnect]
      split
      · exact h.perform hsound (.failAll c.lost) (by simp [Call.verdict?])
      · exact h
  | forget => exact h
  | sweeper held =>
      show (c.sweeperStep held).registry.Together ..
      rw [sweeperStep]
      split
      · split
        · exact h
        · split <;> exact h
      · exact h
  | sweep now =>
      show (c.sweep now).registry.Together ..
      rw [sweep]
      split
      · exact h
      · exact h.sweep hsound now
      · exact h.sweep hsound now
  | read =>
      obtain ⟨wire, he⟩ := c.after_read
      rw [he]
      exact h
  | closeWire => exact h

/-- Messages join the queue at its end, and none is taken from it. -/
theorem outbound_after {e : Event} (he : e.isImpartial = true) :
    c.outbound <+: (c.after e).outbound := by
  cases e with
  | send now x m =>
      obtain ⟨registry, new, -, heq⟩ := after_send_cases c now x m
      rw [heq]
      exact List.prefix_append _ _
  | withdraw reply => cases he
  | receive f => cases he
  | writer held => cases he
  | disconnect =>
      show c.outbound <+: c.disconnect.outbound
      rw [disconnect]
      split <;> exact List.prefix_rfl
  | forget => exact List.prefix_rfl
  | sweeper held =>
      show c.outbound <+: (c.sweeperStep held).outbound
      rw [sweeperStep]
      split
      · split
        · exact List.prefix_rfl
        · split <;> exact List.prefix_rfl
      · exact List.prefix_rfl
  | sweep now =>
      show c.outbound <+: (c.sweep now).outbound
      rw [sweep]
      split <;> exact List.prefix_rfl
  | read =>
      obtain ⟨wire, heq⟩ := c.after_read
      exact heq ▸ List.prefix_rfl
  | closeWire => exact List.prefix_rfl

/-- What can become of a connection that settles no request for itself. -/
def Impartial (c c' : Connection) : Prop :=
  ∃ es : List Event, (∀ e ∈ es, e.isImpartial = true) ∧ c' = c.go es

namespace Impartial

theorem refl (c : Connection) : Impartial c c := ⟨[], List.forall_mem_nil _, rfl⟩

theorem trans (h : Impartial c c') (h' : Impartial c' c'') : Impartial c c'' := by
  obtain ⟨es, hes, rfl⟩ := h
  obtain ⟨es', hes', rfl⟩ := h'
  exact ⟨es ++ es', List.forall_mem_append.mpr ⟨hes, hes'⟩, (go_append c es es').symm⟩

theorem once {e : Event} (he : e.isImpartial = true) (c : Connection) : Impartial c (c.after e) :=
  ⟨[e], List.forall_mem_singleton.mpr he, rfl⟩

/-- What each impartial event keeps. -/
theorem inv (inv : Connection → Prop) (h : Impartial c c')
    (hstep : ∀ c e, e.isImpartial = true → inv c → inv (c.after e)) (hc : inv c) : inv c' := by
  obtain ⟨es, hes, rfl⟩ := h
  induction es generalizing c with
  | nil => exact hc
  | cons e es ih =>
      obtain ⟨he, hes⟩ := List.forall_mem_cons.mp hes
      exact ih (hstep c e he hc) hes

theorem together (h : Impartial c c') (hc : c.Accounted)
    (htogether : c.registry.Together x₁ slot₁ x₂ slot₂) :
    c'.registry.Together x₁ slot₁ x₂ slot₂ :=
  (h.inv (fun c => c.Accounted ∧ c.registry.Together x₁ slot₁ x₂ slot₂)
    (fun _ e he hc => ⟨hc.1.after e, together_after he hc.1.sound hc.2⟩) ⟨hc, htogether⟩).2

theorem queued (h : Impartial c c') :
    c.outbound <+: c'.outbound ∧ c'.writer = c.writer := by
  refine h.inv (fun c' => c.outbound <+: c'.outbound ∧ c'.writer = c.writer)
    (fun c' e he hc => ?_) ⟨List.prefix_rfl, rfl⟩
  refine ⟨hc.1.trans (outbound_after he), (writer_after c' fun held heq => ?_).trans hc.2⟩
  rw [heq] at he
  cases he

end Impartial

end Connection

end Southbound
