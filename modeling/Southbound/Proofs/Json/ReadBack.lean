import Mathlib.Data.Nat.Basic
import Southbound.Json.Printer
import Southbound.Json.Reader

/-!
# Written documents are read back

`read_octets` says that the octets of a document are read as that document,
whatever it is: with texts of any characters, with numbers of any size, and
nested to any depth.

A reader takes a prefix of its input and gives back the rest, so each part is
proved in front of any octets that may follow it.  What may follow a number is
restricted (`EndsNumber`), since a digit, a point or an exponent would continue
it.  A text is taken apart in the two steps of its reader: every octet is
written so that it comes back as one piece (`pieceOf`), and the pieces are
assembled to the octets again.

The fuel of the readers counts calls.  A value of `n` octets needs at most
`2 * n` of them, as the induction over the document shows.
-/

namespace Southbound.Json

/-! ## Digits -/

theorem isDigit_digit {n : Nat} (h : n < 10) : isDigit (48 + n).toUInt8 = true := by
  revert n
  decide

theorem toNat_digit {n : Nat} (h : n < 10) : (48 + n).toUInt8.toNat - 48 = n := by
  revert n
  decide

theorem isDigit_of_mem_decimalDigits {n : Nat} {b : UInt8} (h : b ∈ decimalDigits n) :
    isDigit b = true := by
  induction n using decimalDigits.induct with
  | case1 n hn =>
    rw [decimalDigits, if_pos hn, List.mem_singleton] at h
    exact h ▸ isDigit_digit hn
  | case2 n hn ih =>
    rw [decimalDigits, if_neg hn, List.mem_append, List.mem_singleton] at h
    rcases h with h | rfl
    · exact ih h
    · exact isDigit_digit (by omega)

theorem digitsValue_decimalDigits (n : Nat) : digitsValue (decimalDigits n) = n := by
  induction n using decimalDigits.induct with
  | case1 n hn =>
    rw [decimalDigits, if_pos hn]
    simpa [digitsValue] using toNat_digit hn
  | case2 n hn ih =>
    rw [decimalDigits, if_neg hn, digitsValue, List.foldl_append, ← digitsValue, ih]
    have := toNat_digit (show n % 10 < 10 by omega)
    simp only [List.foldl_cons, List.foldl_nil]
    omega

/-- Only the number zero is written with a zero first. -/
theorem decimalDigits_eq_cons (n : Nat) :
    ∃ b ds, decimalDigits n = b :: ds ∧ isDigit b = true ∧ (b = 48 → ds = []) := by
  induction n using decimalDigits.induct with
  | case1 n hn => exact ⟨_, [], by rw [decimalDigits, if_pos hn], isDigit_digit hn, fun _ => rfl⟩
  | case2 n hn ih =>
    obtain ⟨b, ds, hds, hb, hz⟩ := ih
    refine ⟨b, ds ++ [(48 + n % 10).toUInt8], ?_, hb, fun h48 => ?_⟩
    · rw [decimalDigits, if_neg hn, hds, List.cons_append]
    · -- a tenth that is written `0` is zero, and the number would be a digit
      have hval := digitsValue_decimalDigits (n / 10)
      rw [hds, hz h48, h48] at hval
      have : n / 10 = 0 := by simpa [digitsValue] using hval.symm
      omega

/-! ## Numbers -/

/-- Octets that do not continue a number. -/
def EndsNumber (rest : List UInt8) : Prop :=
  ∀ b ∈ rest.head?, isDigit b = false ∧ b ≠ '.'.toUInt8 ∧ b ≠ 'e'.toUInt8 ∧ b ≠ 'E'.toUInt8

/-- Octets that do not continue digits. -/
def EndsDigits (rest : List UInt8) : Prop := ∀ b ∈ rest.head?, isDigit b = false

theorem EndsNumber.endsDigits {rest : List UInt8} (h : EndsNumber rest) : EndsDigits rest :=
  fun b hb => (h b hb).1

theorem takeWhile_digits {ds rest : List UInt8} (hd : ∀ b ∈ ds, isDigit b = true)
    (hr : EndsDigits rest) : (ds ++ rest).takeWhile isDigit = ds := by
  rw [List.takeWhile_append_of_pos hd]
  cases rest with
  | nil => simp
  | cons b rest => simp [hr b rfl]

theorem dropWhile_digits {ds rest : List UInt8} (hd : ∀ b ∈ ds, isDigit b = true)
    (hr : EndsDigits rest) : (ds ++ rest).dropWhile isDigit = rest := by
  rw [List.dropWhile_append_of_pos hd]
  cases rest with
  | nil => simp
  | cons b rest => simp [hr b rfl]

theorem wholeDigits_decimalDigits (n : Nat) {rest : List UInt8} (hr : EndsDigits rest) :
    wholeDigits (decimalDigits n ++ rest) = some (decimalDigits n, rest) := by
  have hall := fun b => @isDigit_of_mem_decimalDigits n b
  obtain ⟨b, ds, hds, hb, hz⟩ := decimalDigits_eq_cons n
  rw [hds] at hall ⊢
  have hall' : ∀ d ∈ ds, isDigit d = true := fun d hd => hall d (List.mem_cons_of_mem b hd)
  by_cases h48 : b = 48
  · simp [wholeDigits, h48, hz h48]
  · simp [wholeDigits, h48, hb, takeWhile_digits hall' hr, dropWhile_digits hall' hr]

theorem someDigits_decimalDigits (n : Nat) {rest : List UInt8} (hr : EndsDigits rest) :
    someDigits (decimalDigits n ++ rest) = some (decimalDigits n, rest) := by
  have hall := fun b => @isDigit_of_mem_decimalDigits n b
  rw [someDigits, takeWhile_digits hall hr, dropWhile_digits hall hr]
  obtain ⟨b, ds, hds, -⟩ := decimalDigits_eq_cons n
  rw [hds]

/-- A digit is none of the signs and letters that the readers look for. -/
theorem ne_of_isDigit {b : UInt8} (h : isDigit b = true) (c : UInt8)
    (hc : isDigit c = false := by decide) : b ≠ c := by
  rintro rfl
  rw [h] at hc
  cases hc

theorem fractionDigits_of_ends {rest : List UInt8} (h : ∀ b ∈ rest.head?, b ≠ '.'.toUInt8) :
    fractionDigits rest = some ([], rest) := by
  cases rest with
  | nil => rfl
  | cons b rest => simp [fractionDigits, h b rfl]

theorem exponentPart_of_ends {rest : List UInt8} (h : EndsNumber rest) :
    exponentPart rest = some (none, rest) := by
  cases rest with
  | nil => rfl
  | cons b rest => simp [exponentPart, (h b rfl).2.2.1, (h b rfl).2.2.2]

theorem exponentPart_octets (exponent : Int) {rest : List UInt8} (h : EndsNumber rest) :
    exponentPart ('e'.toUInt8 :: ((if exponent < 0 then ['-'.toUInt8] else []) ++
      decimalDigits exponent.natAbs ++ rest)) = some (some exponent, rest) := by
  have hread := someDigits_decimalDigits exponent.natAbs h.endsDigits
  obtain ⟨b, ds, hds, hb, -⟩ := decimalDigits_eq_cons exponent.natAbs
  have hval : digitsValue (b :: ds) = exponent.natAbs := hds ▸ digitsValue_decimalDigits _
  rw [hds] at hread ⊢
  rw [List.cons_append] at hread
  split
  · simp only [exponentPart, decide_true, Bool.true_or, ↓reduceIte, List.cons_append,
      List.nil_append, hread, Option.map_some, hval, Option.some.injEq, Prod.mk.injEq, and_true]
    omega
  · simp only [exponentPart, decide_true, Bool.true_or, ↓reduceIte, List.nil_append,
      List.cons_append, ne_of_isDigit hb '-'.toUInt8, ne_of_isDigit hb '+'.toUInt8, hread,
      Option.map_some, hval, Option.some.injEq, Prod.mk.injEq, and_true]
    omega

theorem readUnsigned_natural (n : Nat) {rest : List UInt8} (h : EndsNumber rest) :
    readUnsigned false (decimalDigits n ++ rest) = some (.natural n, rest) := by
  have hfraction := fractionDigits_of_ends fun b hb => (h b hb).2.1
  simp [readUnsigned, wholeDigits_decimalDigits n h.endsDigits, hfraction,
    exponentPart_of_ends h, digitsValue_decimalDigits]

theorem readUnsigned_decimal (negative : Bool) (n : Nat) (exponent : Int) {rest : List UInt8}
    (h : EndsNumber rest) :
    readUnsigned negative (decimalDigits n ++ ('e'.toUInt8 ::
      ((if exponent < 0 then ['-'.toUInt8] else []) ++ decimalDigits exponent.natAbs ++ rest))) =
      some (.decimal negative n exponent, rest) := by
  have hdigits : EndsDigits ('e'.toUInt8 ::
      ((if exponent < 0 then ['-'.toUInt8] else []) ++ decimalDigits exponent.natAbs ++ rest)) := by
    rintro b ⟨⟩
    decide
  have hfraction : fractionDigits ('e'.toUInt8 ::
      ((if exponent < 0 then ['-'.toUInt8] else []) ++ decimalDigits exponent.natAbs ++ rest)) =
      some ([], _) := fractionDigits_of_ends (by rintro b ⟨⟩; decide)
  simp only [readUnsigned, wholeDigits_decimalDigits n hdigits, hfraction,
    exponentPart_octets exponent h, Option.bind_eq_bind, Option.bind_some]
  simp [digitsValue_decimalDigits]

theorem readNumber_octets (k : Number) {rest : List UInt8} (h : EndsNumber rest) :
    readNumber (numberOctets k ++ rest) = some (k, rest) := by
  have skip : ∀ n tail, readNumber (decimalDigits n ++ tail) =
      readUnsigned false (decimalDigits n ++ tail) := by
    intro n tail
    obtain ⟨b, ds, hds, hb, -⟩ := decimalDigits_eq_cons n
    simp [hds, readNumber, ne_of_isDigit hb '-'.toUInt8]
  cases k with
  | natural n =>
    rw [numberOctets, skip, readUnsigned_natural n h]
  | decimal negative n exponent =>
    have hread := readUnsigned_decimal negative n exponent h
    cases negative with
    | false => simpa [numberOctets, skip] using hread
    | true => simpa [numberOctets, readNumber] using hread

/-- An octet that a number may start with. -/
def StartsNumber (b : UInt8) : Prop := isDigit b = true ∨ b = '-'.toUInt8

instance (b : UInt8) : Decidable (StartsNumber b) := inferInstanceAs (Decidable (_ ∨ _))

theorem StartsNumber.ne {b : UInt8} (h : StartsNumber b) (c : UInt8)
    (hc : ¬ StartsNumber c := by decide) : b ≠ c := by
  rintro rfl
  exact hc h

theorem StartsNumber.isBlank {b : UInt8} (h : StartsNumber b) : isBlank b = false := by
  simp [Json.isBlank, h.ne 32, h.ne 9, h.ne 10, h.ne 13]

theorem numberOctets_eq_cons (k : Number) :
    ∃ b tail, numberOctets k = b :: tail ∧ StartsNumber b := by
  cases k with
  | natural n =>
    obtain ⟨b, ds, hds, hb, -⟩ := decimalDigits_eq_cons n
    exact ⟨b, ds, hds, .inl hb⟩
  | decimal negative n exponent =>
    obtain ⟨b, ds, hds, hb, -⟩ := decimalDigits_eq_cons n
    cases negative with
    | false =>
      simp only [numberOctets, hds]
      exact ⟨b, _, rfl, .inl hb⟩
    | true => exact ⟨'-'.toUInt8, _, rfl, .inr rfl⟩

/-! ## Texts -/

/-- Whether an octet is written as a `\u` unit: a control character without a
short escape. -/
def IsLongEscape (b : UInt8) : Prop := b < 32 ∧ b ∉ [8, 9, 10, 12, 13]

instance (b : UInt8) : Decidable (IsLongEscape b) := inferInstanceAs (Decidable (_ ∧ _))

/-- The piece that the written octet of a text is read as. -/
def pieceOf (b : UInt8) : Piece := if IsLongEscape b then .unit b.toNat else .octet b

theorem hexValue_hexDigit {n : Nat} (h : n < 16) : hexValue (hexDigit n) = some n := by
  revert n
  decide

theorem hexUnit_hexDigit (b : UInt8) (h : b < 32) :
    hexUnit 48 48 (hexDigit (b.toNat / 16)) (hexDigit (b.toNat % 16)) = some b.toNat := by
  have hb : b.toNat < 32 := h
  have hzero : hexValue 48 = some 0 := rfl
  simp only [hexUnit, hzero, hexValue_hexDigit (show b.toNat / 16 < 16 by omega),
    hexValue_hexDigit (show b.toNat % 16 < 16 by omega), Option.bind_eq_bind, Option.bind_some,
    Option.pure_def]
  congr 1
  omega

theorem stringPieces_quote (rest : List UInt8) :
    stringPieces ('"'.toUInt8 :: rest) = some ([], rest) := by
  rw [stringPieces.eq_def]
  rfl

theorem stringPieces_plain {b : UInt8} (hquote : b ≠ '"'.toUInt8) (hslash : b ≠ '\\'.toUInt8)
    (hlow : ¬ b < 32) (rest : List UInt8) :
    stringPieces (b :: rest) = (stringPieces rest).map fun r => (.octet b :: r.1, r.2) := by
  rw [stringPieces.eq_def]
  simp only [hquote, hslash, hlow, if_false]

theorem stringPieces_short {e b : UInt8} (h : shortEscape e = some b) (rest : List UInt8) :
    stringPieces ('\\'.toUInt8 :: e :: rest) =
      (stringPieces rest).map fun r => (.octet b :: r.1, r.2) := by
  have hquote : ¬ '\\'.toUInt8 = '"'.toUInt8 := by decide
  have hletter : shortEscape 'u'.toUInt8 = none := rfl
  have hunit : e ≠ 'u'.toUInt8 := by
    rintro rfl
    exact absurd (hletter.symm.trans h) nofun
  rw [stringPieces.eq_def]
  simp only [hquote, hunit, h, if_false, if_true]

theorem stringPieces_unit {h₁ h₂ h₃ h₄ : UInt8} {u : Nat} (h : hexUnit h₁ h₂ h₃ h₄ = some u)
    (rest : List UInt8) :
    stringPieces ('\\'.toUInt8 :: 'u'.toUInt8 :: h₁ :: h₂ :: h₃ :: h₄ :: rest) =
      (stringPieces rest).map fun r => (.unit u :: r.1, r.2) := by
  have hquote : ¬ '\\'.toUInt8 = '"'.toUInt8 := by decide
  rw [stringPieces.eq_def]
  simp only [hquote, h, if_false, if_true]

theorem stringPieces_escapeOctet (b : UInt8) (rest : List UInt8) :
    stringPieces (escapeOctet b ++ rest) =
      (stringPieces rest).map fun r => (pieceOf b :: r.1, r.2) := by
  unfold escapeOctet
  split_ifs with hquote hslash h8 h9 h10 h12 h13 hlow
  -- the two signs and the five control characters that have a short escape
  iterate 7
    subst b
    exact stringPieces_short rfl rest
  · rw [pieceOf, if_pos ⟨hlow, by simp [h8, h9, h10, h12, h13]⟩]
    exact stringPieces_unit (hexUnit_hexDigit b hlow) rest
  · rw [pieceOf, if_neg fun h => hlow h.1]
    exact stringPieces_plain hquote hslash hlow rest

theorem stringPieces_escaped (octets rest : List UInt8) :
    stringPieces (octets.flatMap escapeOctet ++ '"'.toUInt8 :: rest) =
      some (octets.map pieceOf, rest) := by
  induction octets with
  | nil => exact stringPieces_quote rest
  | cons b octets ih =>
    rw [List.flatMap_cons, List.append_assoc, stringPieces_escapeOctet, ih]
    rfl

theorem utf8EncodeChar_control {n : Nat} (h : n < 32) :
    String.utf8EncodeChar (Char.ofNat n) = [n.toUInt8] := by
  revert n
  decide

theorem assemble_map_pieceOf (octets : List UInt8) :
    assemble (octets.map pieceOf) = some octets := by
  induction octets with
  | nil => rfl
  | cons b octets ih =>
    rw [List.map_cons, pieceOf]
    split
    next hlong =>
      have hb : b.toNat < 32 := hlong.1
      have hhigh : isHighHalf b.toNat = false := by simp [isHighHalf]; omega
      have hlow : isLowHalf b.toNat = false := by simp [isLowHalf]; omega
      rw [assemble.eq_def]
      simp [ih, hhigh, hlow, utf8EncodeChar_control hb]
    next =>
      rw [assemble.eq_def]
      simp [ih]

theorem pieceString_toByteArray (s : String) :
    pieceString (s.toByteArray.data.toList.map pieceOf) = some s := by
  rw [pieceString, assemble_map_pieceOf]
  exact dif_pos s.isValidUTF8

/-- A text is read back after its opening quote. -/
theorem exists_stringOctets (s : Option String) :
    ∃ tail, stringOctets s = '"'.toUInt8 :: tail ∧
      ∀ rest, readString (tail ++ rest) = some (s, rest) := by
  cases s with
  | none =>
    refine ⟨_, rfl, fun rest => ?_⟩
    -- half of a surrogate pair, which is no text
    have hunit : hexUnit 'd'.toUInt8 '8'.toUInt8 48 48 = some 0xD800 := by decide
    simp only [readString, List.cons_append, List.nil_append]
    rw [stringPieces_unit hunit, stringPieces_quote]
    rfl
  | some s =>
    refine ⟨_, rfl, fun rest => ?_⟩
    rw [List.append_assoc, List.cons_append, List.nil_append, readString, stringPieces_escaped,
      Option.map_some, pieceString_toByteArray]

/-! ## Documents -/

theorem skipBlank_cons {b : UInt8} (h : isBlank b = false) (rest : List UInt8) :
    skipBlank (b :: rest) = b :: rest := by
  simp [skipBlank, h]

/-- A document starts with an octet that is no blank and closes no array. -/
theorem octets_eq_cons (j : Json) :
    ∃ b tail, j.octets = b :: tail ∧ isBlank b = false ∧ b ≠ ']'.toUInt8 := by
  cases j with
  | null => exact ⟨_, _, by rw [octets], by decide, by decide⟩
  | bool b => cases b <;> exact ⟨_, _, by rw [octets], by decide, by decide⟩
  | num k =>
    obtain ⟨b, tail, hk, hb⟩ := numberOctets_eq_cons k
    exact ⟨b, tail, by rw [octets, hk], hb.isBlank, hb.ne _⟩
  | str s =>
    obtain ⟨tail, hs, -⟩ := exists_stringOctets s
    exact ⟨_, tail, by rw [octets, hs], by decide, by decide⟩
  | arr items => exact ⟨_, _, by rw [octets], by decide, by decide⟩
  | obj members => exact ⟨_, _, by rw [octets], by decide, by decide⟩

theorem octets_length_pos (j : Json) : 0 < j.octets.length := by
  obtain ⟨b, tail, hj, -⟩ := octets_eq_cons j
  simp [hj]

theorem endsNumber_cons {b : UInt8} (rest : List UInt8)
    (h : isDigit b = false ∧ b ≠ '.'.toUInt8 ∧ b ≠ 'e'.toUInt8 ∧ b ≠ 'E'.toUInt8) :
    EndsNumber (b :: rest) := by
  rintro c ⟨⟩
  exact h

theorem itemsOctets_eq_cons (j : Json) (js : List Json) :
    ∃ b tail, itemsOctets (j :: js) = b :: tail ∧ isBlank b = false ∧ b ≠ ']'.toUInt8 := by
  obtain ⟨b, tail, hj, hb⟩ := octets_eq_cons j
  cases js with
  | nil => exact ⟨b, _, by rw [itemsOctets, hj]; rfl, hb⟩
  | cons j' js => exact ⟨b, _, by rw [itemsOctets, hj]; rfl; simp, hb⟩

theorem membersOctets_eq_cons (name : Option String) (j : Json)
    (ms : List (Option String × Json)) :
    ∃ tail, membersOctets ((name, j) :: ms) = '"'.toUInt8 :: tail := by
  obtain ⟨tail, hs, -⟩ := exists_stringOctets name
  cases ms with
  | nil => exact ⟨_, by rw [membersOctets, hs]; rfl⟩
  | cons m ms => exact ⟨_, by rw [membersOctets, hs]; rfl; simp⟩

section Steps

variable {fuel : Nat} {b : UInt8} {input rest : List UInt8} {j : Json} {name : Option String}

theorem readValue_number (h : StartsNumber b) :
    readValue (fuel + 1) (b :: rest) =
      (readNumber (b :: rest)).map fun r => (.num r.1, r.2) := by
  rw [readValue, skipBlank_cons h.isBlank]
  simp only [h.ne '\x7b'.toUInt8, h.ne '['.toUInt8, h.ne '"'.toUInt8, h.ne 'n'.toUInt8,
    h.ne 't'.toUInt8, h.ne 'f'.toUInt8, if_false]

theorem readValue_text :
    readValue (fuel + 1) ('"'.toUInt8 :: rest) =
      (readString rest).map fun r => (.str r.1, r.2) := by
  rw [readValue, skipBlank_cons (by decide)]
  rfl

theorem readValue_arr (hblank : isBlank b = false) (hclose : b ≠ ']'.toUInt8) :
    readValue (fuel + 1) ('['.toUInt8 :: b :: rest) =
      (readItems fuel (b :: rest)).map fun r => (.arr r.1, r.2) := by
  have hbrace : ¬ '['.toUInt8 = '\x7b'.toUInt8 := by decide
  rw [readValue, skipBlank_cons (by decide)]
  simp only [hbrace, skipBlank_cons hblank, hclose, if_false, if_true]

theorem readValue_obj :
    readValue (fuel + 1) ('\x7b'.toUInt8 :: '"'.toUInt8 :: rest) =
      (readMembers fuel ('"'.toUInt8 :: rest)).map fun r => (.obj r.1, r.2) := by
  rw [readValue, skipBlank_cons (by decide)]
  rfl

theorem readItems_next (h : readValue fuel input = some (j, ','.toUInt8 :: rest)) :
    readItems (fuel + 1) input = (readItems fuel rest).map fun r => (j :: r.1, r.2) := by
  rw [readItems, h]
  rfl

theorem readItems_last (h : readValue fuel input = some (j, ']'.toUInt8 :: rest)) :
    readItems (fuel + 1) input = some ([j], rest) := by
  rw [readItems, h]
  rfl

theorem readMembers_next {value : List UInt8}
    (hname : readString input = some (name, ':'.toUInt8 :: value))
    (h : readValue fuel value = some (j, ','.toUInt8 :: rest)) :
    readMembers (fuel + 1) ('"'.toUInt8 :: input) =
      (readMembers fuel rest).map fun r => ((name, j) :: r.1, r.2) := by
  have hcolon (tail : List UInt8) : skipBlank (':'.toUInt8 :: tail) = ':'.toUInt8 :: tail := rfl
  have hcomma (tail : List UInt8) : skipBlank (','.toUInt8 :: tail) = ','.toUInt8 :: tail := rfl
  rw [readMembers, skipBlank_cons (by decide)]
  simp only [hname, h, hcolon, hcomma, if_true]

theorem readMembers_last {value : List UInt8}
    (hname : readString input = some (name, ':'.toUInt8 :: value))
    (h : readValue fuel value = some (j, '\x7d'.toUInt8 :: rest)) :
    readMembers (fuel + 1) ('"'.toUInt8 :: input) = some ([(name, j)], rest) := by
  have hcolon (tail : List UInt8) : skipBlank (':'.toUInt8 :: tail) = ':'.toUInt8 :: tail := rfl
  have hbrace (tail : List UInt8) :
      skipBlank ('\x7d'.toUInt8 :: tail) = '\x7d'.toUInt8 :: tail := rfl
  have hne : ¬ '\x7d'.toUInt8 = ','.toUInt8 := by decide
  rw [readMembers, skipBlank_cons (by decide)]
  simp only [hname, h, hcolon, hbrace, hne, if_true, if_false]

end Steps

mutual

theorem readValue_octets (j : Json) {fuel : Nat} {rest : List UInt8}
    (hfuel : 2 * j.octets.length ≤ fuel) (hrest : EndsNumber rest) :
    readValue fuel (j.octets ++ rest) = some (j, rest) := by
  obtain ⟨fuel, rfl⟩ : ∃ n, fuel = n + 1 :=
    ⟨fuel - 1, by have := octets_length_pos j; omega⟩
  match j with
  | .null => rw [octets]; rfl
  | .bool true => rw [octets]; rfl
  | .bool false => rw [octets]; rfl
  | .num k =>
    have hread := readNumber_octets k hrest
    obtain ⟨b, tail, hk, hb⟩ := numberOctets_eq_cons k
    rw [hk] at hread
    rw [octets, hk, List.cons_append, readValue_number hb, ← List.cons_append, hread]
    rfl
  | .str s =>
    obtain ⟨tail, hs, hread⟩ := exists_stringOctets s
    rw [octets, hs, List.cons_append, readValue_text, hread]
    rfl
  | .arr [] => rw [octets, itemsOctets]; rfl
  | .arr (j :: js) =>
    rw [octets, List.length_cons] at hfuel
    have hread := @readItems_octets j js fuel rest (by omega)
    obtain ⟨b, tail, hb, hblank, hclose⟩ := itemsOctets_eq_cons j js
    rw [hb] at hread
    rw [octets, hb, List.cons_append, List.cons_append, readValue_arr hblank hclose,
      ← List.cons_append, hread]
    rfl
  | .obj [] => rw [octets, membersOctets]; rfl
  | .obj ((name, j) :: ms) =>
    rw [octets, List.length_cons] at hfuel
    have hread := @readMembers_octets name j ms fuel rest (by omega)
    obtain ⟨tail, hb⟩ := membersOctets_eq_cons name j ms
    rw [hb] at hread
    rw [octets, hb, List.cons_append, List.cons_append, readValue_obj, ← List.cons_append, hread]
    rfl
termination_by fuel

theorem readItems_octets (j : Json) (js : List Json) {fuel : Nat} {rest : List UInt8}
    (hfuel : 2 * (itemsOctets (j :: js)).length ≤ fuel) :
    readItems fuel (itemsOctets (j :: js) ++ rest) = some (j :: js, rest) := by
  have hj := octets_length_pos j
  match js with
  | [] =>
    rw [itemsOctets, List.length_append, List.length_singleton] at hfuel
    obtain ⟨fuel, rfl⟩ : ∃ n, fuel = n + 1 := ⟨fuel - 1, by omega⟩
    rw [itemsOctets, List.append_assoc]
    exact readItems_last (readValue_octets j (by omega) (endsNumber_cons _ (by decide)))
  | k :: ks =>
    rw [itemsOctets, List.length_append, List.length_cons] at hfuel
    · obtain ⟨fuel, rfl⟩ : ∃ n, fuel = n + 1 := ⟨fuel - 1, by omega⟩
      rw [itemsOctets, List.append_assoc, List.cons_append,
        readItems_next (readValue_octets j (by omega) (endsNumber_cons _ (by decide))),
        readItems_octets k ks (by omega)]
      · rfl
      · simp
    · simp
termination_by fuel

theorem readMembers_octets (name : Option String) (j : Json) (ms : List (Option String × Json))
    {fuel : Nat} {rest : List UInt8}
    (hfuel : 2 * (membersOctets ((name, j) :: ms)).length ≤ fuel) :
    readMembers fuel (membersOctets ((name, j) :: ms) ++ rest) = some ((name, j) :: ms, rest) := by
  obtain ⟨tail, hs, hname⟩ := exists_stringOctets name
  have hj := octets_length_pos j
  match ms with
  | [] =>
    rw [membersOctets, hs, List.length_append, List.length_cons, List.length_cons,
      List.length_append] at hfuel
    obtain ⟨fuel, rfl⟩ : ∃ n, fuel = n + 1 := ⟨fuel - 1, by omega⟩
    simp only [membersOctets, hs, List.cons_append, List.append_assoc, List.nil_append]
    exact readMembers_last (hname _)
      (readValue_octets j (by omega) (endsNumber_cons _ (by decide)))
  | (next, k) :: ms =>
    rw [membersOctets, hs, List.length_append, List.length_cons, List.length_cons,
      List.length_append, List.length_cons] at hfuel
    · obtain ⟨fuel, rfl⟩ : ∃ n, fuel = n + 1 := ⟨fuel - 1, by omega⟩
      rw [membersOctets, hs]
      · simp only [List.cons_append, List.append_assoc]
        rw [readMembers_next (hname _)
            (readValue_octets j (by omega) (endsNumber_cons _ (by decide))),
          readMembers_octets next k ms (by omega)]
        rfl
      · simp
    · simp
termination_by fuel

end

/-- What is written is read back, whatever the document is. -/
theorem read_octets (j : Json) : Json.read j.octets = some j := by
  have h := @readValue_octets j (2 * j.octets.length + 2) [] (by omega) nofun
  rw [List.append_nil] at h
  rw [Json.read, h]
  rfl

end Southbound.Json
