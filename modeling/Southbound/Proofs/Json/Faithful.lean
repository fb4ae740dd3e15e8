import Mathlib.Tactic.SplitIfs
import Southbound.Json.Codec

/-!
# Values that are read as they were written

A type is `Faithful` when each of its values, written as a document, is read
back as the same value at every place of a document.  The place matters twice.
A value that is held back has to be `Json.holdable`, and so does every value
that is tagged inside; both restrict how deeply it may stand in a document.
`Faithful α levels` says that `levels` more arrays and objects are enough for
any value of the type.

A record writes its fields in their order and leaves out those without a value
(`written`).  It is read by the names of its fields, so a record is faithful
when its names are distinct and its fields are.  A choice is faithful when its
tag finds the variant that wrote it.
-/

namespace Southbound.Json

/-- Values that are read back from the documents that they are written as, at
most so many levels deep. -/
class Faithful (α : Type) [Encode α] [Decode α] (levels : outParam Nat) : Prop where
  /-- A null is the absence of a value. -/
  encode_ne_null (x : α) : encode x ≠ .null
  decode_encode (p : Place) (x : α) (h : p.depth + levels ≤ maxNesting) :
    decode p (encode x) = some x
  holdable_encode (depth : Nat) (x : α) (h : depth + levels ≤ maxNesting) :
    (encode x).holdable depth = true

export Faithful (encode_ne_null decode_encode holdable_encode)

/-! ## Numbers -/

theorem roundTo53_le {n : Nat} (h : n < UInt64.size) : roundTo53 n ≤ n + 2048 := by
  have hunit : 2 ^ (n.log2 + 1 - 53) ≤ 2 ^ 11 := by
    refine Nat.pow_le_pow_right (by omega) ?_
    have : n.log2 ≤ 63 := by
      by_cases hn : n = 0
      · simp [hn]
      · exact Nat.le_of_lt_succ ((Nat.log2_lt hn).2 h)
    omega
  unfold roundTo53
  dsimp only [Nat.pow_eq]
  generalize 2 ^ (n.log2 + 1 - 53) = unit at hunit ⊢
  have hlow : n / unit * unit ≤ n := Nat.div_mul_le_self n unit
  have hup : (n / unit + 1) * unit = n / unit * unit + unit := Nat.succ_mul _ _
  split_ifs <;> omega

/-- A number of 64 bits has no digits left out. -/
theorem inRange_of_lt {n : Nat} (h : n < UInt64.size)
    (hrange : roundTo53 n * roundTo53 (Nat.pow 10 0) < Nat.pow 2 1024 - Nat.pow 2 970) :
    Number.inRange n 0 = true := by
  have hlead : leadingDigits n = (n, 0) := by rw [leadingDigits, if_pos h]
  unfold Number.inRange
  rw [hlead]
  exact (Bool.or_eq_true _ _).mpr (.inr ((Bool.and_eq_true _ _).mpr ⟨rfl, decide_eq_true hrange⟩))

/-- Every number of 64 bits is in range. -/
theorem representable_natural {n : Nat} (h : n < UInt64.size) :
    Number.representable (.natural n) = true := by
  have hpower : roundTo53 (Nat.pow 10 0) = 1 := by decide
  have hround := roundTo53_le h
  have hbits : roundTo53 n * roundTo53 (Nat.pow 10 0) < Nat.pow 2 65 := by
    have hsize : n < 18446744073709551616 := h
    rw [hpower, Nat.pow_eq]
    omega
  have hrange : Nat.pow 2 65 ≤ Nat.pow 2 1024 - Nat.pow 2 970 := by decide +kernel
  exact inRange_of_lt h (Nat.lt_of_lt_of_le hbits hrange)

theorem holdable_nat {n : Nat} (depth : Nat) (h : n < UInt64.size) :
    (Json.nat n).holdable depth = true := by
  rw [Json.nat, holdable, representable_natural h]

theorem decodeBelow_nat {bound n : Nat} (h : n < bound) : decodeBelow bound (.nat n) = some n :=
  if_pos h

/-! ## Plain values -/

instance : Faithful Bool 0 where
  encode_ne_null _ := nofun
  decode_encode _ _ _ := rfl
  holdable_encode _ _ _ := rfl

instance : Faithful String 0 where
  encode_ne_null _ := nofun
  decode_encode _ _ _ := rfl
  holdable_encode _ _ _ := rfl

instance : Faithful UInt8 0 where
  encode_ne_null _ := nofun
  decode_encode _ n _ := by
    simp only [decode, encode, decodeBelow_nat n.toNat_lt, Option.map_some, UInt8.ofNat_toNat]
  holdable_encode depth n _ := holdable_nat depth (Nat.lt_trans n.toNat_lt (by decide))

instance : Faithful UInt16 0 where
  encode_ne_null _ := nofun
  decode_encode _ n _ := by
    simp only [decode, encode, decodeBelow_nat n.toNat_lt, Option.map_some, UInt16.ofNat_toNat]
  holdable_encode depth n _ := holdable_nat depth (Nat.lt_trans n.toNat_lt (by decide))

instance : Faithful UInt32 0 where
  encode_ne_null _ := nofun
  decode_encode _ n _ := by
    simp only [decode, encode, decodeBelow_nat n.toNat_lt, Option.map_some, UInt32.ofNat_toNat]
  holdable_encode depth n _ := holdable_nat depth (Nat.lt_trans n.toNat_lt (by decide))

instance : Faithful UInt64 0 where
  encode_ne_null _ := nofun
  decode_encode _ n _ := by
    simp only [decode, encode, decodeBelow_nat n.toNat_lt, Option.map_some, UInt64.ofNat_toNat]
  holdable_encode depth n _ := holdable_nat depth n.toNat_lt_size

section Lists

variable {α : Type} [Encode α] [Decode α] {levels : Nat} [Faithful α levels]

theorem holdableItems_eq_true {depth : Nat} {items : List Json} :
    holdableItems depth items = true ↔ ∀ j ∈ items, j.holdable depth = true := by
  induction items with
  | nil => simp [holdableItems]
  | cons j items ih => simp [holdableItems, ih]

theorem mapM_decode_map_encode (p : Place) (xs : List α) (h : p.depth + levels ≤ maxNesting) :
    (xs.map encode).mapM (decode p) = some xs := by
  induction xs with
  | nil => rfl
  | cons x xs ih => simp [decode_encode p x h, ih]

instance : Faithful (List α) (levels + 1) where
  encode_ne_null _ := nofun
  decode_encode p xs h := mapM_decode_map_encode p.inner xs (by simp only [Place.inner]; omega)
  holdable_encode depth xs h := by
    simp only [encode, holdable, Bool.and_eq_true, decide_eq_true_eq, holdableItems_eq_true,
      List.forall_mem_map]
    exact ⟨by omega, fun x _ => holdable_encode _ x (by omega)⟩

end Lists

/-- A type whose documents are those of another type. -/
theorem Faithful.of_view {α β : Type} [Encode α] [Decode α] [Encode β] [Decode β] {levels : Nat}
    [Faithful β levels] (view : α → β) (back : β → Option α)
    (hencode : ∀ x : α, encode x = encode (view x))
    (hdecode : ∀ (p : Place) (j : Json), (decode p j : Option α) = (decode p j).bind back)
    (hback : ∀ x, back (view x) = some x) : Faithful α levels where
  encode_ne_null x := hencode x ▸ encode_ne_null (view x)
  decode_encode p x h := by
    rw [hencode, hdecode, decode_encode p (view x) h, Option.bind_some, hback]
  holdable_encode depth x h := hencode x ▸ holdable_encode depth (view x) h

/-! ## Records -/

/-- The members of a record: each field that has a value, in the order of the
fields. -/
def written (fields : List (String × Option Json)) : List (String × Json) :=
  fields.filterMap fun f => f.2.map fun j => (f.1, j)

theorem member_eq_written {α : Type} [Encode α] (name : String) (x : α) :
    member name x = written [(name, some (encode x))] := rfl

theorem optionalMember_eq_written {α : Type} [Encode α] (name : String) (x : Option α) :
    optionalMember name x = written [(name, x.map encode)] := by
  cases x <;> rfl

@[simp] theorem written_append (fields fields' : List (String × Option Json)) :
    written fields ++ written fields' = written (fields ++ fields') :=
  List.filterMap_append.symm

theorem written_cons_some (name : String) (j : Json) (fields : List (String × Option Json)) :
    written ((name, some j) :: fields) = (name, j) :: written fields := rfl

theorem written_cons_none (name : String) (fields : List (String × Option Json)) :
    written ((name, none) :: fields) = written fields := rfl

theorem mem_names_of_mem_written {fields : List (String × Option Json)} {m : String × Json}
    (h : m ∈ written fields) : m.1 ∈ fields.map Prod.fst := by
  obtain ⟨f, hf, hm⟩ := List.mem_filterMap.1 h
  obtain ⟨j, -, rfl⟩ := Option.map_eq_some_iff.1 hm
  exact List.mem_map_of_mem hf

theorem lookup_eq_none_of_notMem {ms : List (String × Json)} {name : String}
    (h : name ∉ ms.map Prod.fst) : ms.lookup name = none := by
  rw [List.lookup_eq_none_iff]
  intro m hm
  simp only [bne_iff_ne]
  rintro rfl
  exact h (List.mem_map_of_mem hm)

theorem lookup_written {fields : List (String × Option Json)}
    (hnames : (fields.map Prod.fst).Nodup) (name : String) :
    (written fields).lookup name = (fields.lookup name).join := by
  induction fields with
  | nil => rfl
  | cons f fields ih =>
    obtain ⟨own, value⟩ := f
    rw [List.map_cons, List.nodup_cons] at hnames
    by_cases hname : name = own
    · subst hname
      cases value with
      | some j => simp [written_cons_some]
      | none =>
        -- a field without a value is not found under its name in the others either
        have hother : (written fields).lookup name = none := by
          refine lookup_eq_none_of_notMem fun h => ?_
          obtain ⟨m, hm, rfl⟩ := List.mem_map.1 h
          exact hnames.1 (mem_names_of_mem_written hm)
        simp [written_cons_none, hother]
    · have hbeq : (name == own) = false := beq_eq_false_iff_ne.2 hname
      cases value with
      | some j => simp [written_cons_some, List.lookup_cons, hbeq, ih hnames.2]
      | none => simp [written_cons_none, List.lookup_cons, hbeq, ih hnames.2]

/-- Members with distinct names among those of a record are all read. -/
theorem knownMembers_map {names : List String} {ms : List (String × Json)}
    (hnodup : (ms.map Prod.fst).Nodup) (hnames : ∀ m ∈ ms, m.1 ∈ names) :
    knownMembers names (ms.map fun m => (some m.1, m.2)) = some ms := by
  induction ms with
  | nil => rfl
  | cons m ms ih =>
    obtain ⟨name, j⟩ := m
    rw [List.map_cons, List.nodup_cons] at hnodup
    rw [List.forall_mem_cons] at hnames
    have hfresh := lookup_eq_none_of_notMem hnodup.1
    simp [knownMembers, ih hnodup.2 hnames.2, hnames.1, hfresh]

theorem nodup_written {fields : List (String × Option Json)}
    (hnames : (fields.map Prod.fst).Nodup) : ((written fields).map Prod.fst).Nodup := by
  induction fields with
  | nil => exact .nil
  | cons f fields ih =>
    obtain ⟨own, value⟩ := f
    rw [List.map_cons, List.nodup_cons] at hnames
    cases value with
    | none => exact ih hnames.2
    | some j =>
      refine List.nodup_cons.2 ⟨fun h => ?_, ih hnames.2⟩
      obtain ⟨m, hm, hname⟩ := List.mem_map.1 h
      exact hnames.1 (hname ▸ mem_names_of_mem_written hm)

@[simp] theorem recordFields_written {names : List String} {fields : List (String × Option Json)}
    (hfields : fields.map Prod.fst = names) (hnames : names.Nodup) :
    recordFields names (.object (written fields)) = some (written fields) := by
  refine knownMembers_map (nodup_written (hfields ▸ hnames)) fun m hm => ?_
  exact hfields ▸ mem_names_of_mem_written hm

section Fields

variable {α : Type} [Decode α] {fields : List (String × Option Json)}

@[simp] theorem requiredField_written (hnames : (fields.map Prod.fst).Nodup) (p : Place)
    (name : String) :
    (requiredField p (written fields) name : Option α) =
      (fields.lookup name).join.bind (decode p.inner) := by
  rw [requiredField, lookup_written hnames]

@[simp] theorem fieldOr_written (hnames : (fields.map Prod.fst).Nodup) (p : Place) (name : String)
    (absent : α) :
    fieldOr p (written fields) name absent =
      ((fields.lookup name).join.map (decode p.inner)).getD (some absent) := by
  rw [fieldOr, lookup_written hnames]
  cases (fields.lookup name).join <;> rfl

variable [Encode α] {levels : Nat} [Faithful α levels]

@[simp] theorem decode_inner_encode (p : Place) (x : α) (h : p.depth + 1 + levels ≤ maxNesting) :
    decode p.inner (encode x) = some x :=
  decode_encode p.inner x h

/-- A field that is written when it is there is absent when it is not. -/
@[simp] theorem optional_inner_encode (p : Place) (x : Option α)
    (h : p.depth + 1 + levels ≤ maxNesting) :
    (x.map (decode p.inner ∘ encode)).getD (some none) = some x := by
  cases x with
  | none => rfl
  | some x =>
    have hdecode := decode_inner_encode p x h
    have hnull := encode_ne_null x
    simp only [Option.map_some, Option.getD_some, Function.comp_apply]
    cases hj : encode x with
    | null => exact absurd hj hnull
    | _ =>
      rw [hj] at hdecode
      exact congrArg (Option.map some) hdecode

end Fields

/-! ## What is held back -/

/-- Whether the values of members may be held back at a depth. -/
def AllFit (depth : Nat) (ms : List (String × Json)) : Prop :=
  ∀ m ∈ ms, m.2.holdable depth = true

@[simp] theorem allFit_nil (depth : Nat) : AllFit depth [] := nofun

@[simp] theorem allFit_cons (depth : Nat) (m : String × Json) (ms : List (String × Json)) :
    AllFit depth (m :: ms) ↔ m.2.holdable depth = true ∧ AllFit depth ms :=
  List.forall_mem_cons

@[simp] theorem allFit_append (depth : Nat) (ms ms' : List (String × Json)) :
    AllFit depth (ms ++ ms') ↔ AllFit depth ms ∧ AllFit depth ms' :=
  List.forall_mem_append

@[simp] theorem holdable_text (depth : Nat) (s : String) : (Json.text s).holdable depth = true :=
  rfl

@[simp] theorem holdable_object (depth : Nat) (ms : List (String × Json)) :
    (Json.object ms).holdable depth = true ↔ depth < maxNesting ∧ AllFit (depth + 1) ms := by
  have hmembers (ms : List (String × Json)) :
      holdableMembers (depth + 1) (ms.map fun m => (some m.1, m.2)) = true ↔
        AllFit (depth + 1) ms := by
    induction ms with
    | nil => simp [holdableMembers]
    | cons m ms ih => simp [holdableMembers, ih]
  simp [Json.object, holdable, hmembers]

section Held

variable {α : Type} [Encode α] [Decode α] {levels : Nat} [Faithful α levels]

@[simp] theorem allFit_member (depth : Nat) (name : String) (x : α)
    (h : depth + levels ≤ maxNesting) : AllFit depth (member name x) := by
  simp [member, holdable_encode depth x h]

@[simp] theorem allFit_optionalMember (depth : Nat) (name : String) (x : Option α)
    (h : depth + levels ≤ maxNesting) : AllFit depth (optionalMember name x) := by
  cases x with
  | none => exact allFit_nil depth
  | some x => exact allFit_member depth name x h

end Held

/-! ## Choices -/

/-- The tag is taken out and the other members stay. -/
theorem splitTag_object {tag : String} {t : Json} {ms : List (String × Json)}
    (h : tag ∉ ms.map Prod.fst) :
    splitTag tag (.object ((tag, t) :: ms)) = some (t, .object ms) := by
  have hne : ∀ m ∈ ms, m.1 ≠ tag := fun m hm heq => h (heq ▸ List.mem_map_of_mem hm)
  have htag : (ms.map fun m => (some m.1, m.2)).filter (·.1 == some tag) = [] := by
    rw [List.filter_eq_nil_iff, List.forall_mem_map]
    exact fun m hm => by simp [hne m hm]
  have hrest : (ms.map fun m => (some m.1, m.2)).filter (·.1 != some tag) =
      ms.map fun m => (some m.1, m.2) := by
    rw [List.filter_eq_self, List.forall_mem_map]
    exact fun m hm => by simp [hne m hm]
  simp [Json.object, splitTag, htag, hrest]

theorem decodeTagged_object {α : Type} {tag name : String} {ms : List (String × Json)}
    {variants : List (String × Decoder α)} {variant : Decoder α} {p : Place}
    (hms : tag ∉ ms.map Prod.fst) (hvariant : variants.lookup name = some variant)
    (hold : (Json.object ((tag, .text name) :: ms)).holdable p.depth = true) :
    decodeTagged tag variants p (.object ((tag, .text name) :: ms)) =
      variant { p with held := true } (.object ms) := by
  have htag : variantOfTag p variants (.text name) = some variant := hvariant
  simp only [decodeTagged, hold, Bool.or_true, if_true, splitTag_object hms, htag]

section Variants

variable {α β γ : Type} [Encode β] [Decode β] {levels : Nat} [Faithful β levels]
  {tag name : String} {p : Place}

omit [Encode β] [Decode β] in
theorem decodeTagged_empty {variants : List (String × Decoder α)} {x : α}
    (hvariant : variants.lookup name = some (emptyVariant x))
    (hold : (Json.object [(tag, .text name)]).holdable p.depth = true) :
    decodeTagged tag variants p (.object [(tag, .text name)]) = some x :=
  decodeTagged_object List.not_mem_nil hvariant hold

theorem decodeTagged_field {variants : List (String × Decoder α)} {field : String} {f : β → α}
    {x : β} (hvariant : variants.lookup name = some (fieldVariant field f)) (hne : tag ≠ field)
    (hold : (Json.object ((tag, .text name) :: member field x)).holdable p.depth = true)
    (h : p.depth + 1 + levels ≤ maxNesting) :
    decodeTagged tag variants p (.object ((tag, .text name) :: member field x)) =
      some (f x) := by
  rw [decodeTagged_object (by simpa [member] using hne) hvariant hold]
  simp (disch := first | omega | simp) [fieldVariant, member_eq_written]

theorem decodeTagged_twoFields [Encode γ] [Decode γ] {levels' : Nat} [Faithful γ levels']
    {variants : List (String × Decoder α)} {first second : String} {f : β → γ → α} {x : β}
    {y : γ} (hvariant : variants.lookup name = some (twoFieldVariant first second f))
    (hne : [tag, first, second].Nodup)
    (hold : (Json.object ((tag, .text name) :: (member first x ++ member second y))).holdable
      p.depth = true)
    (hx : p.depth + 1 + levels ≤ maxNesting) (hy : p.depth + 1 + levels' ≤ maxNesting) :
    decodeTagged tag variants p
        (.object ((tag, .text name) :: (member first x ++ member second y))) =
      some (f x y) := by
  simp only [List.nodup_cons, List.mem_cons, List.not_mem_nil, or_false, not_or] at hne
  have hbeq : (second == first) = false := beq_eq_false_iff_ne.2 (Ne.symm hne.2.1)
  rw [decodeTagged_object (by simpa [member] using hne.1) hvariant hold]
  simp (disch := first | omega | simp [hne])
    [twoFieldVariant, member_eq_written, List.lookup_cons, hbeq]

theorem decodeTagged_threeFields {δ : Type} [Encode γ] [Decode γ] [Encode δ] [Decode δ]
    {levels' levels'' : Nat} [Faithful γ levels'] [Faithful δ levels'']
    {variants : List (String × Decoder α)} {first second third : String} {f : β → γ → δ → α}
    {x : β} {y : γ} {z : δ}
    (hvariant : variants.lookup name = some (threeFieldVariant first second third f))
    (hne : [tag, first, second, third].Nodup)
    (hold : (Json.object ((tag, .text name) ::
      (member first x ++ member second y ++ member third z))).holdable p.depth = true)
    (hx : p.depth + 1 + levels ≤ maxNesting) (hy : p.depth + 1 + levels' ≤ maxNesting)
    (hz : p.depth + 1 + levels'' ≤ maxNesting) :
    decodeTagged tag variants p
        (.object ((tag, .text name) :: (member first x ++ member second y ++ member third z))) =
      some (f x y z) := by
  simp only [List.nodup_cons, List.mem_cons, List.not_mem_nil, or_false, not_or] at hne
  have hsecond : (second == first) = false := beq_eq_false_iff_ne.2 (Ne.symm hne.2.1.1)
  have hthird : (third == first) = false := beq_eq_false_iff_ne.2 (Ne.symm hne.2.1.2)
  have hthird' : (third == second) = false := beq_eq_false_iff_ne.2 (Ne.symm hne.2.2.1)
  rw [decodeTagged_object (by simpa [member] using hne.1) hvariant hold]
  simp (disch := first | omega | simp [hne])
    [threeFieldVariant, member_eq_written, List.lookup_cons, hsecond, hthird, hthird']

/-- A choice that is written beside its content is read by the variant of its
name. -/
theorem decodeBeside_beside {tag content name : String} {c : Option Json}
    {variants : List (String × (Place → Option Json → Option α))}
    {variant : Place → Option Json → Option α} {p : Place} (hne : tag ≠ content)
    (hvariant : variants.lookup name = some variant) :
    decodeBeside tag content variants p (beside tag content name c) = variant p.inner c := by
  have hbeq : (content == tag) = false := beq_eq_false_iff_ne.2 hne.symm
  have hbeq' : (tag == content) = false := beq_eq_false_iff_ne.2 hne
  cases c <;>
    simp [beside, Json.object, decodeBeside, knownMembers, choiceName, Json.text, List.lookup_cons,
      hvariant, hne, hbeq, hbeq']

theorem contentVariant_encode {f : β → α} {p : Place} {x : β}
    (h : p.depth + levels ≤ maxNesting) :
    contentVariant f p (some (encode x)) = some (f x) := by
  rw [contentVariant, decode_encode p x h, Option.map_some]

theorem noContentVariant_none (x : α) (p : Place) : noContentVariant x p none = some x := rfl

end Variants

end Southbound.Json
