import Southbound.Proofs.Registry.FlowMap
import Southbound.Proofs.Registry.GroupSet

/-!
# The registries as plain maps

The registries of groups and flows are used side by side, and their calls come in any
order.  They return what a set of pairs of a device and a group and a map from the traits
of flows would return, and a device without groups has no entry
(`registries_answer_as_maps`).
-/

namespace Southbound

/-- The registries, used by calls in any order. -/
def Registries.perform : GroupPresence × FlowRegistry → GroupPresence.Call ⊕ FlowRegistry.Call →
    (GroupPresence.Answer ⊕ FlowRegistry.Answer) × (GroupPresence × FlowRegistry) :=
  Calls.both GroupPresence.perform FlowRegistry.perform

/-- A set and a map, used by the same calls. -/
noncomputable def PlainMaps.perform : GroupSet × FlowMap → GroupPresence.Call ⊕ FlowRegistry.Call →
    (GroupPresence.Answer ⊕ FlowRegistry.Answer) × (GroupSet × FlowMap) :=
  Calls.both GroupSet.perform FlowMap.perform

/-- What is recorded is a given set and a given map. -/
def Registries.Represent (r : GroupPresence × FlowRegistry) (m : GroupSet × FlowMap) : Prop :=
  r.1.Lists m.1 ∧ r.2.Maps m.2

theorem Registries.represent_perform (r : GroupPresence × FlowRegistry) (m : GroupSet × FlowMap)
    (c : GroupPresence.Call ⊕ FlowRegistry.Call) (h : Represent r m) :
    (Registries.perform r c).1 = (PlainMaps.perform m c).1 ∧
      Represent (Registries.perform r c).2 (PlainMaps.perform m c).2 := by
  obtain ⟨hgroups, hflows⟩ := h
  cases c with
  | inl c =>
      obtain ⟨hanswer, hlists⟩ := hgroups.perform c
      exact ⟨congrArg Sum.inl hanswer, hlists, hflows⟩
  | inr c =>
      obtain ⟨hanswer, hmaps⟩ := hflows.perform c
      exact ⟨congrArg Sum.inr hanswer, hgroups, hmaps⟩

/-- Whatever the policy and the calls, the registries return what a set and a map return,
and no device has an empty entry. -/
theorem registries_answer_as_maps (policy : FlowKeyPolicy)
    (calls : List (GroupPresence.Call ⊕ FlowRegistry.Call)) :
    Calls.answers Registries.perform ({}, { policy }) calls =
        Calls.answers PlainMaps.perform (∅, { policy }) calls ∧
      ∀ d, (Calls.after Registries.perform ({}, { policy }) calls).1.devices.get? d ≠ some [] := by
  have hempty : Registries.Represent ({}, { policy }) (∅, { policy }) :=
    ⟨GroupPresence.Lists.empty, FlowRegistry.Maps.empty policy⟩
  obtain ⟨hanswers, hlists, -⟩ :=
    Calls.answers_eq_of_step Registries.represent_perform hempty calls
  exact ⟨hanswers, hlists.get?_ne_nil⟩

end Southbound
