import Southbound.Proofs.Table
import Southbound.Registry.FlowRegistry

/-!
# What is known of flows

What is recorded or forgotten of the flows of one device is nothing to any other
(`FlowRegistry.device_store_of_ne` and its like), and of a device that was cleared
nothing is known.
-/

namespace Southbound

namespace FlowRegistry

variable {d d' : DeviceId}

theorem device_store_self (r : FlowRegistry) (d : DeviceId) (f : Flow)
    (descriptor : FlowDescriptor) :
    (r.store d f descriptor).device d =
      { r.device d with byKey := (r.device d).byKey.set (r.key f) descriptor } := by
  simp [device, store]

theorem device_store_of_ne (h : d' ≠ d) (r : FlowRegistry) (f : Flow)
    (descriptor : FlowDescriptor) : (r.store d f descriptor).device d' = r.device d' := by
  simp only [device, store]
  rw [Table.get?_set_of_ne h]

theorem device_remove_self (r : FlowRegistry) (d : DeviceId) (f : Flow) :
    (r.remove d f).2.device d =
      { r.device d with byKey := (r.device d).byKey.erase (r.key f) } := by
  rw [device, remove, Table.modify, device]
  cases h : r.devices.get? d with
  | none =>
      simp only [h]
      rfl
  | some flows => simp

theorem device_remove_of_ne (h : d' ≠ d) (r : FlowRegistry) (f : Flow) :
    (r.remove d f).2.device d' = r.device d' := by
  simp only [device, remove]
  rw [Table.get?_modify_of_ne h]

theorem device_observe_of_ne (h : d' ≠ d) (r : FlowRegistry) (f : Flow) :
    (r.observe d f).2.device d' = r.device d' := by
  rw [observe]
  split
  · rfl
  · simp only [device]
    rw [Table.get?_set_of_ne h]

/-- What is recorded of a flow is kept. -/
theorem observe_known {r : FlowRegistry} {f : Flow} {x : FlowDescriptor}
    (h : r.retrieve d f = some x) : r.observe d f = (x, r) := by
  rw [observe, h]

/-- A flow with an id is recorded under it. -/
theorem observe_named {r : FlowRegistry} {f : Flow} {id : FlowId}
    (h : r.retrieve d f = none) (hid : f.id = some id) :
    r.observe d f = (⟨f.table, id⟩, r.store d f ⟨f.table, id⟩) := by
  rw [observe, h, hid]
  rfl

/-- What a flow without an id is recorded as, if nothing is known of it. -/
def alien (r : FlowRegistry) (d : DeviceId) (f : Flow) : FlowDescriptor :=
  ⟨f.table, alienFlowId f.table (r.device d).minted.toNat⟩

/-- A flow without an id is given one. -/
theorem observe_alien {r : FlowRegistry} {f : Flow} (h : r.retrieve d f = none)
    (hid : f.id = none) :
    (r.observe d f).1 = r.alien d f ∧
      (r.observe d f).2.device d = { (r.store d f (r.alien d f)).device d with
        minted := (r.device d).minted + 1 } := by
  rw [observe, h, hid, device_store_self]
  refine ⟨rfl, ?_⟩
  simp only [device, Table.get?_set_self]
  rfl

theorem policy_observe (r : FlowRegistry) (d : DeviceId) (f : Flow) :
    (r.observe d f).2.policy = r.policy := by
  rw [observe]
  split <;> rfl

@[simp] theorem device_clearDevice_self (r : FlowRegistry) (d : DeviceId) :
    (r.clearDevice d).device d = {} := by
  simp [device, clearDevice]

theorem device_clearDevice_of_ne (h : d' ≠ d) (r : FlowRegistry) :
    (r.clearDevice d).device d' = r.device d' := by
  simp only [device, clearDevice]
  rw [Table.get?_erase_of_ne h]

end FlowRegistry

end Southbound
