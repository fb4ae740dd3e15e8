import Mathlib.Data.Set.Card
import Southbound.Proofs.Registry.Calls
import Southbound.Proofs.Registry.FlowRegistry

/-!
# Flows that are known, as a map

What is known of flows is one map (`FlowMap`).  A flow is looked up by its device and by
what tells it from the other flows there (`Flow.traits`), and what is found is what was
last recorded there.  Beside the map stands how many ids were given out for each device.

`FlowRegistry.Maps` ties the two together.  Every call keeps it and answers as the map
does (`FlowRegistry.Maps.perform`).
-/

namespace Southbound

/-- The size of a table is the number of keys at which it holds something. -/
theorem Table.ncard_get?_ne_none {κ ν : Type} [DecidableEq κ] (t : Table κ ν) :
    {k | t.get? k ≠ none}.ncard = t.size := by
  have hkeys : {k | t.get? k ≠ none} = (t.keys.toFinset : Set κ) := by
    ext k
    simp [mem_keys_iff]
  rw [hkeys, Set.ncard_coe_finset, keys, List.toFinset_card_of_nodup t.nodup,
    List.length_map, size]

/-! ## What tells flows apart -/

/-- What tells the flows of a device apart: priority, cookie, match, and flags where
they count. -/
abbrev Traits := UInt16 × UInt64 × Match × Option FlowFlags

def Flow.traits (policy : FlowKeyPolicy) (f : Flow) : Traits :=
  (f.priority, f.cookie, f.fields, if policy.includeFlags then some f.flags else none)

/-- A key is made of the traits of its flows. -/
def FlowKey.traits : FlowKey ≃ Traits where
  toFun k := (k.priority, k.cookie, k.fields, k.flags)
  invFun t := ⟨t.1, t.2.1, t.2.2.1, t.2.2.2⟩

/-! ## Maps of flows -/

/-- The flows that are known of all devices. -/
structure FlowMap where
  policy : FlowKeyPolicy
  /-- What was recorded last for the flows with given traits. -/
  known : DeviceId × Traits → Option FlowDescriptor := fun _ => none
  /-- How many ids were given out for a device. -/
  minted : DeviceId → UInt64 := fun _ => 0

namespace FlowMap

def lookup (m : FlowMap) (d : DeviceId) (f : Flow) : Option FlowDescriptor :=
  m.known (d, f.traits m.policy)

def record (m : FlowMap) (d : DeviceId) (f : Flow) (x : Option FlowDescriptor) : FlowMap :=
  { m with known := Function.update m.known (d, f.traits m.policy) x }

def mint (m : FlowMap) (d : DeviceId) : FlowMap :=
  { m with minted := Function.update m.minted d (m.minted d + 1) }

/-- How many flows of a device are known. -/
noncomputable def count (m : FlowMap) (d : DeviceId) : Nat := {t | m.known (d, t) ≠ none}.ncard

def clearDevice (m : FlowMap) (d : DeviceId) : FlowMap where
  policy := m.policy
  known p := if p.1 = d then none else m.known p
  minted := Function.update m.minted d 0

/-- What is known of a flow that is seen.  It is recorded if nothing was, with an id
given out if it has none. -/
def observe (m : FlowMap) (d : DeviceId) (f : Flow) : FlowDescriptor × FlowMap :=
  match m.lookup d f, f.id with
  | some x, _ => (x, m)
  | none, some id => (⟨f.table, id⟩, m.record d f (some ⟨f.table, id⟩))
  | none, none =>
    let x : FlowDescriptor := ⟨f.table, alienFlowId f.table (m.minted d).toNat⟩
    (x, (m.mint d).record d f (some x))

/-- What a call does to a map, and what it returns. -/
noncomputable def perform (m : FlowMap) : FlowRegistry.Call → FlowRegistry.Answer × FlowMap
  | .store d f x => (.done, m.record d f (some x))
  | .observe d f => (.descriptor (m.observe d f).1, (m.observe d f).2)
  | .retrieve d f => (.known (m.lookup d f), m)
  | .remove d f => (.known (m.lookup d f), m.record d f none)
  | .count d => (.count (m.count d), m)
  | .clearDevice d => (.done, m.clearDevice d)

end FlowMap

/-! ## What is recorded -/

namespace FlowRegistry

/-- What is recorded of flows is a given map. -/
structure Maps (r : FlowRegistry) (m : FlowMap) : Prop where
  policy : m.policy = r.policy
  known : ∀ d k, m.known (d, k.traits) = (r.device d).byKey.get? k
  minted : ∀ d, m.minted d = (r.device d).minted

variable {r r' : FlowRegistry} {m : FlowMap} {d : DeviceId} {f : Flow}

theorem Maps.empty (policy : FlowKeyPolicy) : Maps { policy } { policy } where
  policy := rfl
  known _ _ := rfl
  minted _ := rfl

theorem Maps.lookup (h : r.Maps m) (d : DeviceId) (f : Flow) :
    r.retrieve d f = m.lookup d f := by
  rw [FlowMap.lookup, h.policy]
  exact (h.known d (r.key f)).symm

theorem Maps.count (h : r.Maps m) (d : DeviceId) : r.count d = m.count d := by
  have htraits : {t | m.known (d, t) ≠ none} =
      FlowKey.traits '' {k | (r.device d).byKey.get? k ≠ none} := by
    ext t
    rw [Equiv.image_eq_preimage_symm]
    simp [← h.known]
  rw [FlowRegistry.count, FlowMap.count, htraits,
    Set.ncard_image_of_injective _ FlowKey.traits.injective, Table.ncard_get?_ne_none]

/-- One key of one device has something else recorded, and nothing changes for the other
devices. -/
theorem Maps.record (h : r.Maps m) {x : Option FlowDescriptor}
    (hpolicy : r'.policy = r.policy)
    (hself : (r'.device d).byKey.get? = Function.update (r.device d).byKey.get? (r.key f) x)
    (hminted : (r'.device d).minted = (r.device d).minted)
    (hother : ∀ d', d' ≠ d → r'.device d' = r.device d') :
    r'.Maps (m.record d f x) where
  policy := h.policy.trans hpolicy.symm
  known d' k := by
    rw [FlowMap.record, h.policy]
    by_cases hd : d' = d
    · subst hd
      rw [hself]
      by_cases hk : k = r.key f
      · subst hk
        rw [Function.update_self]
        exact Function.update_self ..
      · have hne : (d', k.traits) ≠ (d', f.traits r.policy) := by
          intro heq
          exact hk (FlowKey.traits.injective (Prod.mk.inj heq).2)
        rw [Function.update_of_ne hk]
        exact (Function.update_of_ne hne ..).trans (h.known d' k)
    · have hne : (d', k.traits) ≠ (d, f.traits r.policy) := by
        intro heq
        exact hd (Prod.mk.inj heq).1
      rw [hother d' hd]
      exact (Function.update_of_ne hne ..).trans (h.known d' k)
  minted d' := by
    by_cases hd : d' = d
    · subst hd
      exact (h.minted d').trans hminted.symm
    · rw [hother d' hd]
      exact h.minted d'

/-- One more id was given out for a device. -/
theorem Maps.mint (h : r.Maps m) (hpolicy : r'.policy = r.policy)
    (hself : r'.device d = { r.device d with minted := (r.device d).minted + 1 })
    (hother : ∀ d', d' ≠ d → r'.device d' = r.device d') : r'.Maps (m.mint d) where
  policy := h.policy.trans hpolicy.symm
  known d' k := by
    refine (h.known d' k).trans ?_
    by_cases hd : d' = d
    · subst hd
      rw [hself]
    · rw [hother d' hd]
  minted d' := by
    rw [FlowMap.mint]
    by_cases hd : d' = d
    · subst hd
      rw [hself, ← h.minted]
      exact Function.update_self ..
    · rw [hother d' hd, ← h.minted]
      exact Function.update_of_ne hd ..

theorem Maps.store (h : r.Maps m) (d : DeviceId) (f : Flow) (x : FlowDescriptor) :
    (r.store d f x).Maps (m.record d f (some x)) := by
  refine h.record rfl ?_ ?_ fun d' hd => device_store_of_ne hd r f x
  · rw [device_store_self]
    exact Table.get?_set_eq_update ..
  · rw [device_store_self]

theorem Maps.remove (h : r.Maps m) (d : DeviceId) (f : Flow) :
    (r.remove d f).2.Maps (m.record d f none) := by
  refine h.record rfl ?_ ?_ fun d' hd => device_remove_of_ne hd r f
  · rw [device_remove_self]
    exact Table.get?_erase_eq_update ..
  · rw [device_remove_self]

theorem Maps.clearDevice (h : r.Maps m) (d : DeviceId) :
    (r.clearDevice d).Maps (m.clearDevice d) where
  policy := h.policy
  known d' k := by
    rw [FlowMap.clearDevice]
    by_cases hd : d' = d
    · subst hd
      rw [device_clearDevice_self]
      exact if_pos rfl
    · rw [device_clearDevice_of_ne hd]
      exact (if_neg hd).trans (h.known d' k)
  minted d' := by
    rw [FlowMap.clearDevice]
    by_cases hd : d' = d
    · subst hd
      rw [device_clearDevice_self]
      exact Function.update_self ..
    · rw [device_clearDevice_of_ne hd]
      exact (Function.update_of_ne hd ..).trans (h.minted d')

theorem Maps.observe (h : r.Maps m) (d : DeviceId) (f : Flow) :
    (r.observe d f).1 = (m.observe d f).1 ∧ (r.observe d f).2.Maps (m.observe d f).2 := by
  have hlookup := h.lookup d f
  cases hknown : r.retrieve d f with
  | some x =>
      rw [FlowMap.observe, ← hlookup, hknown, observe_known hknown]
      exact ⟨rfl, h⟩
  | none =>
      cases hid : f.id with
      | some id =>
          rw [FlowMap.observe, ← hlookup, hknown, hid, observe_named hknown hid]
          exact ⟨rfl, h.store d f _⟩
      | none =>
          -- Recording the flow and counting its id are two changes, made one after the other.
          obtain ⟨hx, hdevice⟩ := observe_alien hknown hid
          have hmint : (r.observe d f).2.Maps ((m.record d f (some (r.alien d f))).mint d) := by
            refine (h.store d f (r.alien d f)).mint (policy_observe r d f) ?_ ?_
            · rw [hdevice, device_store_self]
            · intro d' hd
              rw [device_observe_of_ne hd, device_store_of_ne hd]
          rw [FlowMap.observe, ← hlookup, hknown, hid, h.minted]
          exact ⟨hx, hmint⟩

/-- A call answers as the map does, and what is recorded is still the map. -/
theorem Maps.perform (h : r.Maps m) (c : Call) :
    (r.perform c).1 = (m.perform c).1 ∧ (r.perform c).2.Maps (m.perform c).2 := by
  cases c with
  | store d f x => exact ⟨rfl, h.store d f x⟩
  | observe d f =>
      obtain ⟨hx, hmaps⟩ := h.observe d f
      exact ⟨congrArg Answer.descriptor hx, hmaps⟩
  | retrieve d f => exact ⟨congrArg Answer.known (h.lookup d f), h⟩
  | remove d f => exact ⟨congrArg Answer.known (h.lookup d f), h.remove d f⟩
  | count d => exact ⟨congrArg Answer.count (h.count d), h⟩
  | clearDevice d => exact ⟨rfl, h.clearDevice d⟩

end FlowRegistry

end Southbound
