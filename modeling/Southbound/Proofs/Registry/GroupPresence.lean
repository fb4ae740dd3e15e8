import Southbound.Registry.GroupPresence

/-!
# What is known of groups

What is recorded or forgotten of the groups of one device is nothing to any other
(`GroupPresence.groups_store_of_ne` and its like), and a group that was recorded is
there (`GroupPresence.contains_store_self`).
-/

namespace Southbound

namespace GroupPresence

variable {d d' : DeviceId}

theorem groups_store_self (r : GroupPresence) (d : DeviceId) (g : GroupId) :
    (r.store d g).2.groups d = insertGroup g (r.groups d) := by
  simp [groups, store]

theorem groups_store_of_ne (h : d' ≠ d) (r : GroupPresence) (g : GroupId) :
    (r.store d g).2.groups d' = r.groups d' := by
  simp only [groups, store]
  rw [Table.get?_set_of_ne h]

/-- The entry of a device goes with its last group. -/
theorem get?_remove_self (r : GroupPresence) (d : DeviceId) (g : GroupId) :
    (r.remove d g).2.devices.get? d =
      if ((r.groups d).filter (· ≠ g)).isEmpty then none
      else some ((r.groups d).filter (· ≠ g)) := by
  rw [remove]
  cases ((r.groups d).filter (· ≠ g)).isEmpty with
  | true => exact Table.get?_erase_self ..
  | false => exact Table.get?_set_self ..

theorem get?_remove_of_ne (h : d' ≠ d) (r : GroupPresence) (g : GroupId) :
    (r.remove d g).2.devices.get? d' = r.devices.get? d' := by
  rw [remove]
  cases ((r.groups d).filter (· ≠ g)).isEmpty with
  | true => exact Table.get?_erase_of_ne h ..
  | false => exact Table.get?_set_of_ne h ..

theorem groups_remove_self (r : GroupPresence) (d : DeviceId) (g : GroupId) :
    (r.remove d g).2.groups d = (r.groups d).filter (· ≠ g) := by
  rw [groups, get?_remove_self]
  cases hrest : (r.groups d).filter (· ≠ g) with
  | nil => rfl
  | cons h hs => rfl

theorem groups_remove_of_ne (h : d' ≠ d) (r : GroupPresence) (g : GroupId) :
    (r.remove d g).2.groups d' = r.groups d' := by
  rw [groups, get?_remove_of_ne h, groups]

theorem groups_clearDevice_of_ne (h : d' ≠ d) (r : GroupPresence) :
    (r.clearDevice d).groups d' = r.groups d' := by
  simp only [groups, clearDevice]
  rw [Table.get?_erase_of_ne h]

/-- A group that was recorded is there. -/
theorem contains_store_self (r : GroupPresence) (d : DeviceId) (g : GroupId) :
    (r.store d g).2.contains d g = true := by
  rw [contains]
  rw [groups_store_self, List.contains_iff_mem, mem_insertGroup]
  exact .inl rfl

theorem contains_congr {r r' : GroupPresence} (h : r'.groups d = r.groups d) (g : GroupId) :
    r'.contains d g = r.contains d g := by
  rw [contains, h, contains]

end GroupPresence

end Southbound
