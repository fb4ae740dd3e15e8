import Mathlib.Logic.Function.Basic
import Southbound.Table

/-!
# What finite maps hold

What a table holds is a function of its keys, which `Table.set` and `Table.erase` update at
one place.  The keys of a table are those at which it holds something
(`Table.mem_keys_iff`).
-/

namespace Southbound

namespace Table

variable {κ ν : Type} [DecidableEq κ] {t : Table κ ν} {k k' : κ} {v : ν}

theorem get?_set_eq_update (t : Table κ ν) (k : κ) (v : ν) :
    (t.set k v).get? = Function.update t.get? k (some v) := by
  funext k'
  by_cases h : k' = k
  · subst h
    rw [get?_set_self, Function.update_self]
  · rw [get?_set_of_ne h, Function.update_of_ne h]

theorem get?_erase_eq_update (t : Table κ ν) (k : κ) :
    (t.erase k).get? = Function.update t.get? k none := by
  funext k'
  by_cases h : k' = k
  · subst h
    rw [get?_erase_self, Function.update_self]
  · rw [get?_erase_of_ne h, Function.update_of_ne h]

theorem get?_modify_of_ne (h : k' ≠ k) (t : Table κ ν) (f : ν → ν) :
    (t.modify k f).get? k' = t.get? k' := by
  rw [modify]
  split
  · exact get?_set_of_ne h t _
  · rfl

theorem mem_keys_iff : k ∈ t.keys ↔ t.get? k ≠ none := by
  rw [get?, keys]
  generalize t.entries = es
  induction es with
  | nil => simp [entryOf]
  | cons e es ih =>
      obtain ⟨k', v⟩ := e
      rw [List.map_cons, List.mem_cons, entryOf, ih]
      by_cases h : k' = k
      · simp [h]
      · simp [h, Ne.symm h]

theorem mem_values_of_get? (h : t.get? k = some v) : v ∈ t.values := by
  rw [get?] at h
  rw [values]
  generalize t.entries = es at h ⊢
  induction es with
  | nil => cases h
  | cons e es ih =>
      obtain ⟨k', v'⟩ := e
      rw [entryOf] at h
      split at h
      · cases h
        exact .head _
      · exact .tail _ (ih h)

/-- A table in which a key has its value already is the same. -/
theorem set_eq_self (h : t.get? k = some v) : t.set k v = t := by
  obtain ⟨es, hnodup⟩ := t
  replace h : entryOf k es = some v := h
  have hsame : setEntry k v es = es := by
    clear hnodup
    induction es with
    | nil => cases h
    | cons e es ih =>
        obtain ⟨k', v'⟩ := e
        rw [entryOf] at h
        rw [setEntry]
        split at h
        · next hk =>
            cases h
            rw [if_pos hk, hk]
        · next hk => rw [if_neg hk, ih h]
  rw [set]
  simp only [hsame]

end Table

end Southbound
