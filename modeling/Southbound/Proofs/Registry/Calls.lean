import Southbound.Proofs.Registry.FlowRegistry
import Southbound.Registry.GroupPresence

/-!
# Calls of the registries

A registry is used by calls that are made one after another.  `Calls.answers` is what
they return and `Calls.after` the state that they leave, for anything that takes calls.

Two states answer all calls alike if every call is answered alike by states that are
related and leaves related states (`Calls.answers_eq_of_step`).
-/

namespace Southbound

/-! ## Calls that are made one after another -/

namespace Calls

variable {σ τ κ ρ : Type}

/-- The state after calls. -/
def after (perform : σ → κ → ρ × σ) (s : σ) (calls : List κ) : σ :=
  calls.foldl (fun s c => (perform s c).2) s

/-- What calls return. -/
def answers (perform : σ → κ → ρ × σ) : σ → List κ → List ρ
  | _, [] => []
  | s, c :: calls => (perform s c).1 :: answers perform (perform s c).2 calls

variable {perform : σ → κ → ρ × σ}

/-- What every call keeps, calls keep. -/
theorem after_of_step {Holds : σ → Prop} (step : ∀ s c, Holds s → Holds (perform s c).2)
    {s : σ} (h : Holds s) (calls : List κ) : Holds (after perform s calls) := by
  induction calls generalizing s with
  | nil => exact h
  | cons c calls ih => exact ih (step s c h)

/-- Related states answer calls alike, and stay related. -/
theorem answers_eq_of_step {perform' : τ → κ → ρ × τ} {Related : σ → τ → Prop}
    (step : ∀ s t c, Related s t →
      (perform s c).1 = (perform' t c).1 ∧ Related (perform s c).2 (perform' t c).2)
    {s : σ} {t : τ} (h : Related s t) (calls : List κ) :
    answers perform s calls = answers perform' t calls ∧
      Related (after perform s calls) (after perform' t calls) := by
  induction calls generalizing s t with
  | nil => exact ⟨rfl, h⟩
  | cons c calls ih =>
      obtain ⟨hanswer, hstate⟩ := step s t c h
      obtain ⟨hanswers, hafter⟩ := ih hstate
      refine ⟨?_, hafter⟩
      rw [answers, answers, hanswer, hanswers]

/-- Two things that take calls beside each other. -/
def both {κ' ρ' : Type} (perform : σ → κ → ρ × σ) (perform' : τ → κ' → ρ' × τ) :
    σ × τ → κ ⊕ κ' → (ρ ⊕ ρ') × (σ × τ)
  | (s, t), .inl c => (.inl (perform s c).1, ((perform s c).2, t))
  | (s, t), .inr c => (.inr (perform' t c).1, (s, (perform' t c).2))

end Calls

/-! ## Calls about groups -/

namespace GroupPresence

/-- What can be asked of the groups that are recorded. -/
inductive Call where
  | store (d : DeviceId) (g : GroupId)
  | contains (d : DeviceId) (g : GroupId)
  | remove (d : DeviceId) (g : GroupId)
  | groups (d : DeviceId)
  | clearDevice (d : DeviceId)
deriving DecidableEq, Repr

/-- What a call about groups returns. -/
inductive Answer where
  | done
  | decision (b : Bool)
  | groups (gs : List GroupId)
deriving DecidableEq, Repr

def perform (r : GroupPresence) : Call → Answer × GroupPresence
  | .store d g => (.decision (r.store d g).1, (r.store d g).2)
  | .contains d g => (.decision (r.contains d g), r)
  | .remove d g => (.decision (r.remove d g).1, (r.remove d g).2)
  | .groups d => (.groups (r.groups d), r)
  | .clearDevice d => (.done, r.clearDevice d)

end GroupPresence

/-! ## Calls about flows -/

namespace FlowRegistry

/-- What can be asked of the flows that are recorded. -/
inductive Call where
  | store (d : DeviceId) (f : Flow) (descriptor : FlowDescriptor)
  | observe (d : DeviceId) (f : Flow)
  | retrieve (d : DeviceId) (f : Flow)
  | remove (d : DeviceId) (f : Flow)
  | count (d : DeviceId)
  | clearDevice (d : DeviceId)
deriving DecidableEq, Repr

/-- What a call about flows returns. -/
inductive Answer where
  | done
  | descriptor (x : FlowDescriptor)
  | known (x : Option FlowDescriptor)
  | count (n : Nat)
deriving DecidableEq, Repr

def perform (r : FlowRegistry) : Call → Answer × FlowRegistry
  | .store d f descriptor => (.done, r.store d f descriptor)
  | .observe d f => (.descriptor (r.observe d f).1, (r.observe d f).2)
  | .retrieve d f => (.known (r.retrieve d f), r)
  | .remove d f => (.known (r.remove d f).1, (r.remove d f).2)
  | .count d => (.count (r.count d), r)
  | .clearDevice d => (.done, r.clearDevice d)

/-- No call changes the policy. -/
theorem policy_after (r : FlowRegistry) (calls : List Call) :
    (Calls.after perform r calls).policy = r.policy := by
  have step : ∀ (s : FlowRegistry) (c : Call), s.policy = r.policy →
      (s.perform c).2.policy = r.policy := by
    intro s c h
    cases c with
    | observe d f => exact (policy_observe s d f).trans h
    | _ => exact h
  exact Calls.after_of_step step rfl calls

end FlowRegistry

end Southbound
