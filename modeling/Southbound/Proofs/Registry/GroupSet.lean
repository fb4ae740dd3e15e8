import Mathlib.Data.Finset.Sort
import Southbound.Proofs.Registry.Calls
import Southbound.Proofs.Registry.GroupPresence

/-!
# Groups that are present, as a set

What is known of groups is a set of pairs of a device and a group (`GroupSet`): a group
is recorded by an insertion, and the groups of a device are listed by their order.

The set says what the entry of a device is (`GroupSet.entry`), since groups are kept in
ascending order and a device without groups has no entry.  `GroupPresence.Lists` says
that all entries are so.  Every call keeps it and answers as the set does
(`GroupPresence.Lists.perform`).
-/

namespace Southbound

/-! ## The order of groups -/

theorem GroupId.toNat_injective : Function.Injective fun g : GroupId => g.val.toNat := by
  rintro ⟨g⟩ ⟨h⟩ heq
  exact congrArg GroupId.mk (UInt32.toNat_inj.mp heq)

/-- Groups are ordered by their ids. -/
instance : LinearOrder GroupId :=
  LinearOrder.lift' (fun g : GroupId => g.val.toNat) GroupId.toNat_injective

theorem GroupId.lt_iff {g h : GroupId} : g < h ↔ g.val < h.val := UInt32.lt_iff_toNat_lt.symm

/-- One more id leaves a list in ascending order. -/
theorem pairwise_insertGroup {g : GroupId} {gs : List GroupId} (h : gs.Pairwise (· < ·)) :
    (insertGroup g gs).Pairwise (· < ·) := by
  induction gs with
  | nil => exact List.pairwise_singleton ..
  | cons k ks ih =>
      obtain ⟨hk, hks⟩ := List.pairwise_cons.mp h
      rw [insertGroup]
      split
      · next hlt =>
          have hgk : g < k := GroupId.lt_iff.mpr hlt
          refine h.cons ?_
          intro x hx
          rcases List.mem_cons.mp hx with rfl | hx
          · exact hgk
          · exact hgk.trans (hk x hx)
      · next hnlt =>
          split
          · exact h
          · next hne =>
              have hle : k ≤ g := not_lt.mp (mt GroupId.lt_iff.mp hnlt)
              refine (ih hks).cons ?_
              intro x hx
              rcases mem_insertGroup.mp hx with rfl | hx
              · exact lt_of_le_of_ne hle (Ne.symm hne)
              · exact hk x hx

/-! ## Sets of groups -/

/-- The devices with the groups that they are known to have. -/
abbrev GroupSet := Finset (DeviceId × GroupId)

namespace GroupSet

/-- The groups of a device in ascending order. -/
def groups (s : GroupSet) (d : DeviceId) : List GroupId :=
  ((s.filter (·.1 = d)).image Prod.snd).sort (· ≤ ·)

/-- What a call does to a set, and what it returns. -/
def perform (s : GroupSet) : GroupPresence.Call → GroupPresence.Answer × GroupSet
  | .store d g => (.decision (decide ((d, g) ∉ s)), insert (d, g) s)
  | .contains d g => (.decision (decide ((d, g) ∈ s)), s)
  | .remove d g => (.decision (decide ((d, g) ∈ s)), s.erase (d, g))
  | .groups d => (.groups (groups s d), s)
  | .clearDevice d => (.done, s.filter (·.1 ≠ d))

variable {s s' : GroupSet} {d d' : DeviceId} {g : GroupId}

theorem mem_groups : g ∈ groups s d ↔ (d, g) ∈ s := by
  rw [groups, Finset.mem_sort, Finset.mem_image]
  constructor
  · rintro ⟨p, hp, rfl⟩
    obtain ⟨hmem, rfl⟩ := Finset.mem_filter.mp hp
    exact hmem
  · intro h
    exact ⟨(d, g), Finset.mem_filter.mpr ⟨h, rfl⟩, rfl⟩

theorem pairwise_groups (s : GroupSet) (d : DeviceId) : (groups s d).Pairwise (· < ·) :=
  (Finset.sortedLT_sort _).pairwise

/-- There is one list of given groups in ascending order. -/
theorem groups_eq {gs : List GroupId} (hgs : gs.Pairwise (· < ·))
    (h : ∀ g, g ∈ gs ↔ (d, g) ∈ s) : groups s d = gs := by
  refine List.Pairwise.eq_of_mem_iff (pairwise_groups s d) hgs ?_
  intro g
  rw [mem_groups, h]

theorem groups_congr (h : ∀ g, (d, g) ∈ s' ↔ (d, g) ∈ s) : groups s' d = groups s d := by
  refine groups_eq (pairwise_groups s d) ?_
  intro g
  rw [mem_groups, h]

theorem groups_insert_self (s : GroupSet) (d : DeviceId) (g : GroupId) :
    groups (insert (d, g) s) d = insertGroup g (groups s d) := by
  refine groups_eq (pairwise_insertGroup (pairwise_groups s d)) ?_
  intro h
  rw [mem_insertGroup, mem_groups, Finset.mem_insert, Prod.mk.injEq]
  simp

theorem groups_insert_of_ne (hd : d' ≠ d) (s : GroupSet) (g : GroupId) :
    groups (insert (d, g) s) d' = groups s d' := by
  refine groups_congr ?_
  intro h
  rw [Finset.mem_insert, Prod.mk.injEq]
  simp [hd]

theorem groups_erase_self (s : GroupSet) (d : DeviceId) (g : GroupId) :
    groups (s.erase (d, g)) d = (groups s d).filter (· ≠ g) := by
  refine groups_eq ((pairwise_groups s d).filter _) ?_
  intro h
  rw [List.mem_filter, mem_groups, Finset.mem_erase]
  simp [and_comm]

theorem groups_erase_of_ne (hd : d' ≠ d) (s : GroupSet) (g : GroupId) :
    groups (s.erase (d, g)) d' = groups s d' := by
  refine groups_congr ?_
  intro h
  rw [Finset.mem_erase]
  simp [hd]

theorem groups_filter_self (s : GroupSet) (d : DeviceId) :
    groups (s.filter (·.1 ≠ d)) d = [] := by
  refine groups_eq .nil ?_
  simp

theorem groups_filter_of_ne (hd : d' ≠ d) (s : GroupSet) :
    groups (s.filter (·.1 ≠ d)) d' = groups s d' := by
  refine groups_congr ?_
  intro h
  rw [Finset.mem_filter]
  simp [hd]

/-- What is kept for a device: its groups, or nothing if it has none. -/
def entry (s : GroupSet) (d : DeviceId) : Option (List GroupId) :=
  if (groups s d).isEmpty then none else some (groups s d)

theorem entry_ne_some_nil (s : GroupSet) (d : DeviceId) : entry s d ≠ some [] := by
  rw [entry]
  split
  · exact nofun
  · next h =>
      intro hnil
      rw [Option.some.inj hnil] at h
      exact h rfl

theorem entry_getD (s : GroupSet) (d : DeviceId) : (entry s d).getD [] = groups s d := by
  rw [entry]
  split
  · next h => exact (List.isEmpty_iff.mp h).symm
  · rfl

theorem entry_congr (h : groups s' d = groups s d) : entry s' d = entry s d := by
  rw [entry, h, entry]

end GroupSet

/-! ## What is recorded -/

namespace GroupPresence

/-- What is recorded of groups is a given set. -/
def Lists (r : GroupPresence) (s : GroupSet) : Prop :=
  ∀ d, r.devices.get? d = GroupSet.entry s d

variable {r : GroupPresence} {s : GroupSet}

theorem Lists.empty : Lists {} ∅ := by
  intro d
  have hnil : GroupSet.groups ∅ d = [] := GroupSet.groups_eq .nil (by simp)
  rw [GroupSet.entry, hnil]
  rfl

/-- The groups of a device are listed in their order. -/
theorem Lists.groups (h : r.Lists s) (d : DeviceId) : r.groups d = GroupSet.groups s d := by
  rw [GroupPresence.groups, h d, GroupSet.entry_getD]

theorem Lists.contains (h : r.Lists s) (d : DeviceId) (g : GroupId) :
    r.contains d g = decide ((d, g) ∈ s) := by
  rw [Bool.eq_iff_iff, GroupPresence.contains, h.groups, List.contains_iff_mem,
    GroupSet.mem_groups, decide_eq_true_eq]

theorem Lists.store (h : r.Lists s) (d : DeviceId) (g : GroupId) :
    (r.store d g).2.Lists (insert (d, g) s) := by
  intro d'
  by_cases hd : d' = d
  · subst hd
    have hmem : g ∈ insertGroup g (GroupSet.groups s d') := mem_insertGroup.mpr (.inl rfl)
    have hne : insertGroup g (GroupSet.groups s d') ≠ [] := List.ne_nil_of_mem hmem
    rw [GroupPresence.store, Table.get?_set_self, h.groups, GroupSet.entry,
      GroupSet.groups_insert_self, if_neg (mt List.isEmpty_iff.mp hne)]
  · rw [GroupPresence.store, Table.get?_set_of_ne hd, h d']
    exact (GroupSet.entry_congr (GroupSet.groups_insert_of_ne hd s g)).symm

theorem Lists.remove (h : r.Lists s) (d : DeviceId) (g : GroupId) :
    (r.remove d g).2.Lists (s.erase (d, g)) := by
  intro d'
  by_cases hd : d' = d
  · subst hd
    rw [get?_remove_self, h.groups, GroupSet.entry, GroupSet.groups_erase_self]
  · rw [get?_remove_of_ne hd, h d']
    exact (GroupSet.entry_congr (GroupSet.groups_erase_of_ne hd s g)).symm

theorem Lists.clearDevice (h : r.Lists s) (d : DeviceId) :
    (r.clearDevice d).Lists (s.filter (·.1 ≠ d)) := by
  intro d'
  by_cases hd : d' = d
  · subst hd
    rw [GroupPresence.clearDevice, Table.get?_erase_self, GroupSet.entry,
      GroupSet.groups_filter_self]
    rfl
  · rw [GroupPresence.clearDevice, Table.get?_erase_of_ne hd, h d']
    exact (GroupSet.entry_congr (GroupSet.groups_filter_of_ne hd s)).symm

/-- A call answers as the set does, and what is recorded is still the set. -/
theorem Lists.perform (h : r.Lists s) (c : Call) :
    (r.perform c).1 = (GroupSet.perform s c).1 ∧
      (r.perform c).2.Lists (GroupSet.perform s c).2 := by
  cases c with
  | store d g =>
      refine ⟨congrArg Answer.decision ?_, h.store d g⟩
      rw [GroupPresence.store, h.contains, decide_not]
  | contains d g => exact ⟨congrArg Answer.decision (h.contains d g), h⟩
  | remove d g => exact ⟨congrArg Answer.decision (h.contains d g), h.remove d g⟩
  | groups d => exact ⟨congrArg Answer.groups (h.groups d), h⟩
  | clearDevice d => exact ⟨rfl, h.clearDevice d⟩

/-- A device without groups has no entry. -/
theorem Lists.get?_ne_nil (h : r.Lists s) (d : DeviceId) : r.devices.get? d ≠ some [] := by
  rw [h d]
  exact GroupSet.entry_ne_some_nil s d

end GroupPresence

end Southbound
