/-!
# Finite maps

A `Table` is a finite map that keeps its keys in the order in which they were
first put.  No key is there twice.

What a table holds is seen through `Table.get?`, and the lemmas say what
`Table.set` and `Table.erase` do to it.
-/

namespace Southbound

/-- A finite map in the order in which its keys were first put. -/
structure Table (κ ν : Type) where
  entries : List (κ × ν) := []
  /-- No key is there twice. -/
  nodup : (entries.map Prod.fst).Nodup := by exact List.nodup_nil

namespace Table

variable {κ ν : Type}

instance : Inhabited (Table κ ν) := ⟨{}⟩

def empty : Table κ ν := {}

def keys (t : Table κ ν) : List κ := t.entries.map Prod.fst

/-- The values in the order of their keys. -/
def values (t : Table κ ν) : List ν := t.entries.map Prod.snd

def size (t : Table κ ν) : Nat := t.entries.length

variable [DecidableEq κ]

/-! ## Lists of entries -/

/-- The first value of a key in a list of entries. -/
def entryOf (k : κ) : List (κ × ν) → Option ν
  | [] => none
  | (k', v) :: es => if k' = k then some v else entryOf k es

/-- A list of entries in which a key has a given value: in its place, or else
at the end. -/
def setEntry (k : κ) (v : ν) : List (κ × ν) → List (κ × ν)
  | [] => [(k, v)]
  | (k', v') :: es => if k' = k then (k, v) :: es else (k', v') :: setEntry k v es

theorem mem_keys_setEntry {k k' : κ} {v : ν} {es : List (κ × ν)} :
    k' ∈ (setEntry k v es).map Prod.fst ↔ k' = k ∨ k' ∈ es.map Prod.fst := by
  induction es with
  | nil => simp [setEntry]
  | cons e es ih =>
    obtain ⟨k₀, v₀⟩ := e
    by_cases h : k₀ = k
    · subst h
      simp [setEntry]
    · simp only [setEntry, h, if_false, List.map_cons, List.mem_cons, ih]
      exact ⟨fun h => h.elim (fun h => .inr (.inl h)) (fun h => h.elim .inl (.inr ∘ .inr)),
        fun h => h.elim (fun h => .inr (.inl h)) (fun h => h.elim .inl (.inr ∘ .inr))⟩

theorem nodup_setEntry {k : κ} {v : ν} {es : List (κ × ν)} (h : (es.map Prod.fst).Nodup) :
    ((setEntry k v es).map Prod.fst).Nodup := by
  induction es with
  | nil => simp [setEntry]
  | cons e es ih =>
    obtain ⟨k₀, v₀⟩ := e
    simp only [List.map_cons, List.nodup_cons] at h
    by_cases hk : k₀ = k
    · subst hk
      simpa [setEntry] using h
    · simp only [setEntry, hk, if_false, List.map_cons, List.nodup_cons]
      exact ⟨fun hm => (mem_keys_setEntry.1 hm).elim hk h.1, ih h.2⟩

theorem entryOf_setEntry_self (k : κ) (v : ν) (es : List (κ × ν)) :
    entryOf k (setEntry k v es) = some v := by
  induction es with
  | nil => simp [setEntry, entryOf]
  | cons e es ih =>
    obtain ⟨k₀, v₀⟩ := e
    by_cases h : k₀ = k <;> simp [setEntry, entryOf, h, ih]

theorem entryOf_setEntry_of_ne {k k' : κ} (h : k' ≠ k) (v : ν) (es : List (κ × ν)) :
    entryOf k' (setEntry k v es) = entryOf k' es := by
  induction es with
  | nil => simp [setEntry, entryOf, Ne.symm h]
  | cons e es ih =>
    obtain ⟨k₀, v₀⟩ := e
    by_cases h₀ : k₀ = k
    · subst h₀
      simp [setEntry, entryOf, Ne.symm h]
    · by_cases h₁ : k₀ = k'
      · subst h₁
        simp [setEntry, entryOf, h]
      · simp [setEntry, entryOf, h₀, h₁, ih]

/-! ## Maps -/

def get? (t : Table κ ν) (k : κ) : Option ν := entryOf k t.entries

/-- Whether a key has a value. -/
def contains (t : Table κ ν) (k : κ) : Bool := (t.get? k).isSome

/-- The map in which a key has a given value. -/
def set (t : Table κ ν) (k : κ) (v : ν) : Table κ ν :=
  ⟨setEntry k v t.entries, nodup_setEntry t.nodup⟩

def erase (t : Table κ ν) (k : κ) : Table κ ν :=
  ⟨t.entries.filter (·.1 ≠ k), t.nodup.sublist ((List.filter_sublist).map _)⟩

/-- The map in which the value of a key, if it has one, is changed. -/
def modify (t : Table κ ν) (k : κ) (f : ν → ν) : Table κ ν :=
  match t.get? k with
  | some v => t.set k (f v)
  | none => t

@[simp] theorem get?_empty (k : κ) : (empty : Table κ ν).get? k = none := rfl

@[simp] theorem get?_set_self (t : Table κ ν) (k : κ) (v : ν) : (t.set k v).get? k = some v :=
  entryOf_setEntry_self k v t.entries

theorem get?_set_of_ne {k k' : κ} (h : k' ≠ k) (t : Table κ ν) (v : ν) :
    (t.set k v).get? k' = t.get? k' :=
  entryOf_setEntry_of_ne h v t.entries

@[simp] theorem get?_erase_self (t : Table κ ν) (k : κ) : (t.erase k).get? k = none := by
  obtain ⟨es, hn⟩ := t
  simp only [get?, erase]
  clear hn
  induction es with
  | nil => rfl
  | cons e es ih =>
    obtain ⟨k₀, v₀⟩ := e
    by_cases h : k₀ = k
    · simpa [h] using ih
    · simpa [h, entryOf] using ih

theorem get?_erase_of_ne {k k' : κ} (h : k' ≠ k) (t : Table κ ν) :
    (t.erase k).get? k' = t.get? k' := by
  obtain ⟨es, hn⟩ := t
  simp only [get?, erase]
  clear hn
  induction es with
  | nil => rfl
  | cons e es ih =>
    obtain ⟨k₀, v₀⟩ := e
    by_cases h₀ : k₀ = k
    · subst h₀
      simpa [entryOf, Ne.symm h] using ih
    · by_cases h₁ : k₀ = k'
      · simp [h₁, entryOf, h]
      · simpa [h₀, h₁, entryOf] using ih

end Table

end Southbound
