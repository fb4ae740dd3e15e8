import Mathlib.Data.List.Basic
import Southbound.Proofs.Toml.Texts
import Southbound.Toml.Reader

/-!
# Plain values of settings documents are read back

Texts, switches and integers of 64 bits are read back at the end of a line
(`readValue_display`).

The reader of plain values first looks for a date or a time, then for a word and then for
a number.  So of an integer it has to be shown that none of the others comes next: digits
up to the end of the line have no dash or colon after them (`startsDate_digits`,
`startsTime_digits`), and only the number zero starts with a zero, so no letter of another
base follows it (`toDigits_eq_cons`).
-/

namespace Southbound.Toml

/-- The end of a line, or of the document. -/
def AtLineEnd (rest : List Char) : Prop := ∀ c ∈ rest.head?, c = '\n'

theorem atLineEnd_cons (rest : List Char) : AtLineEnd ('\n' :: rest) := by
  rintro _ ⟨⟩
  rfl

/-- Plain values that can be written as settings. -/
def Scalar.Writable : Scalar → Prop
  | .text _ => True
  | .integer n => -(Nat.pow 2 63 : Int) ≤ n ∧ n < Nat.pow 2 63
  | .bool _ => True
  | .float _ => False
  | .time _ => False

/-! ## Digits -/

/-- A digit is none of the signs and letters that the readers look for. -/
theorem ne_of_isDigit {c : Char} (h : c.isDigit = true) (x : Char)
    (hx : x.isDigit = false := by decide) : c ≠ x := by
  rintro rfl
  cases h.symm.trans hx

theorem isDigit_of_mem {n : Nat} {c : Char} (h : c ∈ Nat.toDigits 10 n) : c.isDigit = true :=
  Nat.isDigit_of_mem_toDigits (by decide) (by decide) h

/-- Only the number zero is written with a zero first. -/
theorem toDigits_eq_cons (n : Nat) :
    ∃ c ds, Nat.toDigits 10 n = c :: ds ∧ c.isDigit = true ∧ (c = '0' → ds = []) := by
  induction n using Nat.strongRecOn with
  | ind n ih =>
    by_cases hn : n < 10
    · have hone := Nat.toDigits_of_lt_base hn
      refine ⟨n.digitChar, [], hone, ?_, fun _ => rfl⟩
      exact isDigit_of_mem (n := n) (hone ▸ List.mem_singleton_self _)
    · obtain ⟨c, ds, hds, hc, hzero⟩ := ih (n / 10) (by omega)
      have hmore := Nat.toDigits_of_base_le (b := 10) (n := n) (by decide) (by omega)
      refine ⟨c, ds ++ [(n % 10).digitChar], by rw [hmore, hds]; rfl, hc, fun h0 => ?_⟩
      -- a tenth that is written `0` is zero, and the number would be a digit
      have hval : Nat.ofDigitChars 10 (Nat.toDigits 10 (n / 10)) 0 = n / 10 :=
        Nat.ofDigitChars_ten_toDigits
      rw [hds, hzero h0, h0] at hval
      have : n / 10 = 0 := hval.symm
      omega

theorem digitValue_of_isDigit {c : Char} (h : c.isDigit = true) :
    digitValue c = c.toNat - 48 := by
  have hrange : (decide ('0' ≤ c) && decide (c ≤ '9')) = true := by
    simpa [Char.isDigit, Char.le_def] using h
  rw [digitValue, hexDigitValue, if_pos hrange]
  rfl

/-- The digits of a number are read as that number. -/
theorem digitsInBase_toDigits (n : Nat) : digitsInBase 10 (Nat.toDigits 10 n) = n := by
  have hvalues : digitsInBase 10 (Nat.toDigits 10 n) =
      Nat.ofDigitChars 10 (Nat.toDigits 10 n) 0 := by
    refine List.foldl_ext _ _ 0 fun m c hc => ?_
    rw [digitValue_of_isDigit (isDigit_of_mem hc)]
    rfl
  rw [hvalues, Nat.ofDigitChars_ten_toDigits]

section LineEnds

variable {rest : List Char}

/-- The end of a line does not go on with a digit. -/
theorem AtLineEnd.ne (h : AtLineEnd rest) (x : Char) (hx : x ≠ '\n') :
    ∀ c ∈ rest.head?, c ≠ x := by
  rintro c hc rfl
  exact hx (h c hc)

theorem moreDigits_append {ds : List Char} (hds : ∀ d ∈ ds, d.isDigit = true)
    (h : AtLineEnd rest) : moreDigits Char.isDigit (ds ++ rest) = some (ds, rest) := by
  induction ds with
  | nil =>
    cases rest with
    | nil => rfl
    | cons c cs =>
      obtain rfl := h c rfl
      rw [List.nil_append, moreDigits.eq_def]
      rfl
  | cons d ds ih =>
    rw [List.forall_mem_cons] at hds
    rw [List.cons_append, moreDigits.eq_def]
    simp only [hds.1, if_true, ih hds.2, before_some]

theorem takeWhole_toDigits (n : Nat) (h : AtLineEnd rest) :
    takeWhole (Nat.toDigits 10 n ++ rest) = some (Nat.toDigits 10 n, rest) := by
  have hall := fun c => @isDigit_of_mem n c
  obtain ⟨c, ds, hds, hc, hzero⟩ := toDigits_eq_cons n
  rw [hds] at hall ⊢
  by_cases h0 : c = '0'
  · simp [takeWhole, h0, hzero h0]
  · have hmore := moreDigits_append (fun d hd => hall d (List.mem_cons_of_mem c hd)) h
    simp [takeWhole, h0, hc, hmore]

/-! ## What does not come next -/

/-- Two digits that are taken from digits up to the end of a line leave digits. -/
theorem takeTwoDigits_append {ds : List Char} (h : AtLineEnd rest) {r : Nat × List Char}
    (htake : takeTwoDigits (ds ++ rest) = some r) :
    ∃ a b ds', ds = a :: b :: ds' ∧ r.2 = ds' ++ rest := by
  match ds, rest, h with
  | a :: b :: ds, rest, _ =>
    rw [List.cons_append, List.cons_append, takeTwoDigits] at htake
    split at htake
    · cases htake
      exact ⟨a, b, ds, rfl, rfl⟩
    · cases htake
  | [a], [], _ => cases htake
  | [a], c :: cs, h =>
    obtain rfl := h c rfl
    have hline : ('\n').isDigit = false := by decide
    simp [takeTwoDigits, hline] at htake
  | [], [], _ => cases htake
  | [], [c], h => cases htake
  | [], c :: c' :: cs, h =>
    obtain rfl := h c rfl
    have hline : ('\n').isDigit = false := by decide
    simp [takeTwoDigits, hline] at htake

/-- Digits up to the end of a line do not start with a sign. -/
theorem head_digits_ne {ds : List Char} (hds : ∀ d ∈ ds, d.isDigit = true) (h : AtLineEnd rest)
    (x : Char) (hdigit : x.isDigit = false) (hx : x ≠ '\n') :
    ∀ c ∈ (ds ++ rest).head?, c ≠ x := by
  cases ds with
  | nil => exact h.ne x hx
  | cons d ds =>
    rintro _ ⟨⟩
    exact ne_of_isDigit (hds d (List.mem_cons_self ..)) x hdigit

theorem startsTime_digits {ds : List Char} (hds : ∀ d ∈ ds, d.isDigit = true)
    (h : AtLineEnd rest) : startsTime (ds ++ rest) = false := by
  rw [startsTime]
  split
  next n cs htake =>
    obtain ⟨a, b, ds', rfl, hrest⟩ := takeTwoDigits_append h htake
    have hds' : ∀ d ∈ ds', d.isDigit = true := fun d hd => hds d (by simp [hd])
    have hhead := head_digits_ne hds' h ':' (by decide) (by decide)
    exact absurd rfl (hhead ':' (hrest ▸ rfl))
  next => rfl

theorem startsDate_digits {ds : List Char} (hds : ∀ d ∈ ds, d.isDigit = true)
    (h : AtLineEnd rest) : startsDate (ds ++ rest) = false := by
  rw [startsDate]
  split
  next n cs htake =>
    obtain ⟨r, hfirst, hsecond⟩ := Option.bind_eq_some_iff.mp htake
    obtain ⟨a, b, ds', rfl, hrest⟩ := takeTwoDigits_append h hfirst
    rw [hrest] at hsecond
    obtain ⟨a', b', ds'', rfl, hrest'⟩ := takeTwoDigits_append h hsecond
    have hds'' : ∀ d ∈ ds'', d.isDigit = true := fun d hd => hds d (by simp [hd])
    have hhead := head_digits_ne hds'' h '-' (by decide) (by decide)
    exact absurd rfl (hhead '-' (hrest' ▸ rfl))
  next => rfl

theorem afterChars_eq_none {w c : Char} (h : w ≠ c) (ws cs : List Char) :
    afterChars (w :: ws) (c :: cs) = none :=
  if_neg h

/-! ## Integers -/

theorem readDecimal_toDigits (negative : Bool) (n : Nat) (h : AtLineEnd rest) :
    readDecimal negative (Nat.toDigits 10 n ++ rest) =
      (integerOf (if negative then -(n : Int) else n)).map (·, rest) := by
  have hend : goesOn rest = false := by
    cases rest with
    | nil => rfl
    | cons c cs =>
      obtain rfl := h c rfl
      rfl
  simp only [readDecimal, takeWhole_toDigits n h, Option.bind_eq_bind, Option.bind_some, hend,
    digitsInBase_toDigits, Bool.false_eq_true, if_false, Option.map_eq_bind]
  rfl

theorem readSigned_toDigits (negative : Bool) (n : Nat) (h : AtLineEnd rest) :
    readSigned negative (Nat.toDigits 10 n ++ rest) =
      (integerOf (if negative then -(n : Int) else n)).map (·, rest) := by
  have hread := readDecimal_toDigits negative n h
  obtain ⟨c, ds, hds, hc, -⟩ := toDigits_eq_cons n
  rw [hds] at hread ⊢
  rw [List.cons_append] at hread ⊢
  rw [readSigned, afterChars_eq_none (ne_of_isDigit hc 'i').symm,
    afterChars_eq_none (ne_of_isDigit hc 'n').symm]
  exact hread

/-- No letter of another base follows the first digit. -/
theorem readNumber_toDigits {n : Nat} (h : AtLineEnd rest) :
    readNumber (Nat.toDigits 10 n ++ rest) = (integerOf (n : Int)).map (·, rest) := by
  refine Eq.trans ?_ (readSigned_toDigits false n h)
  obtain ⟨c, ds, hds, hc, hzero⟩ := toDigits_eq_cons n
  have hbase (x : Char) (cs : List Char) (hx : x ≠ '\n') : c :: (ds ++ rest) ≠ '0' :: x :: cs := by
    intro heq
    obtain ⟨h0, htail⟩ := List.cons_eq_cons.mp heq
    rw [hzero h0, List.nil_append] at htail
    exact h.ne x hx x (htail ▸ rfl) rfl
  have hsign (x : Char) (cs : List Char) (hx : x.isDigit = false) : c :: (ds ++ rest) ≠ x :: cs :=
    fun heq => ne_of_isDigit hc x hx (List.cons_eq_cons.mp heq).1
  rw [hds, List.cons_append]
  unfold readNumber
  split
  next heq => exact absurd heq (hbase 'x' _ (by decide))
  next heq => exact absurd heq (hbase 'o' _ (by decide))
  next heq => exact absurd heq (hbase 'b' _ (by decide))
  next heq => exact absurd heq (hsign '-' _ (by decide))
  next heq => exact absurd heq (hsign '+' _ (by decide))
  next => rfl

/-! ## Plain values -/

theorem readScalar_of_not_time {cs : List Char} (hdate : startsDate cs = false)
    (htime : startsTime cs = false) (htrue : afterChars ['t', 'r', 'u', 'e'] cs = none)
    (hfalse : afterChars ['f', 'a', 'l', 's', 'e'] cs = none) :
    readScalar cs = readNumber cs := by
  simp only [readScalar, hdate, htime, htrue, hfalse, Bool.false_eq_true, if_false]

/-- A character with which neither a date nor a time starts. -/
theorem startsDate_cons {c : Char} (hc : c.isDigit = false) (cs : List Char) :
    startsDate (c :: cs) = false ∧ startsTime (c :: cs) = false := by
  have htake : takeTwoDigits (c :: cs) = none := by
    cases cs <;> simp [takeTwoDigits, hc]
  simp [startsDate, startsTime, htake]

omit rest in
theorem toList_display_ofNat (m : Nat) :
    (Scalar.integer (Int.ofNat m)).display.toList = Nat.toDigits 10 m := by
  show (Nat.repr m).toList = _
  rw [Nat.repr_eq_ofList_toDigits, String.toList_ofList]

omit rest in
theorem toList_display_negSucc (m : Nat) :
    (Scalar.integer (Int.negSucc m)).display.toList = '-' :: Nat.toDigits 10 (m + 1) := by
  show ("-" ++ Nat.repr (m + 1)).toList = _
  rw [String.toList_append, Nat.repr_eq_ofList_toDigits]
  exact congrArg ('-' :: ·) String.toList_ofList

/-- A number of 64 bits is read back at the end of a line. -/
theorem readScalar_integer {n : Int} (hn : (Scalar.integer n).Writable) (h : AtLineEnd rest) :
    readScalar ((Scalar.integer n).display.toList ++ rest) = some (.integer n, rest) := by
  have hfits : integerOf n = some (.integer n) := if_pos hn
  cases n with
  | ofNat m =>
    have hall := fun c => @isDigit_of_mem m c
    have hread := readNumber_toDigits (n := m) h
    have hdate := startsDate_digits hall h
    have htime := startsTime_digits hall h
    rw [toList_display_ofNat]
    obtain ⟨c, ds, hds, hc, -⟩ := toDigits_eq_cons m
    rw [hds, List.cons_append] at hread hdate htime ⊢
    rw [readScalar_of_not_time hdate htime (afterChars_eq_none (ne_of_isDigit hc 't').symm _ _)
      (afterChars_eq_none (ne_of_isDigit hc 'f').symm _ _), hread]
    exact congrArg (Option.map (·, rest)) hfits
  | negSucc m =>
    obtain ⟨hdate, htime⟩ := startsDate_cons (c := '-') (by decide)
      (Nat.toDigits 10 (m + 1) ++ rest)
    have hread := readSigned_toDigits true (m + 1) h
    rw [toList_display_negSucc, List.cons_append, readScalar_of_not_time hdate htime rfl rfl]
    exact hread.trans (congrArg (Option.map (·, rest)) hfits)

theorem readScalar_bool (b : Bool) :
    readScalar ((Scalar.bool b).display.toList ++ rest) = some (.bool b, rest) := by
  cases b with
  | true =>
    have hletter : ('t').isDigit = false := by decide
    obtain ⟨hdate, htime⟩ := startsDate_cons hletter ('r' :: 'u' :: 'e' :: rest)
    show readScalar ('t' :: 'r' :: 'u' :: 'e' :: rest) = _
    simp [readScalar, hdate, htime, afterChars]
  | false =>
    have hletter : ('f').isDigit = false := by decide
    obtain ⟨hdate, htime⟩ := startsDate_cons hletter ('a' :: 'l' :: 's' :: 'e' :: rest)
    show readScalar ('f' :: 'a' :: 'l' :: 's' :: 'e' :: rest) = _
    simp [readScalar, hdate, htime, afterChars]

/-! ## Values -/

/-- A written text starts with a quote. -/
theorem writeText_eq_cons (s : String) :
    ∃ q cs, (writeText s).toList = q :: cs ∧ (q = '"' ∨ q = apostrophe) := by
  rw [writeText, String.toList_ofList]
  cases styleOf s.toList with
  | basic => exact ⟨_, _, rfl, .inl rfl⟩
  | literal => exact ⟨_, _, rfl, .inr rfl⟩
  | basicLines => exact ⟨_, _, rfl, .inl rfl⟩
  | literalLines => exact ⟨_, _, rfl, .inr rfl⟩

/-- A character with which neither a text nor an array nor a table starts, and no gap. -/
def StartsScalar (c : Char) : Prop :=
  c ≠ '"' ∧ c ≠ apostrophe ∧ c ≠ '[' ∧ c ≠ '\x7b' ∧ isGap c = false

instance (c : Char) : Decidable (StartsScalar c) := inferInstanceAs (Decidable (_ ∧ _))

theorem startsScalar_of_isDigit {c : Char} (h : c.isDigit = true) : StartsScalar c := by
  refine ⟨ne_of_isDigit h '"', ne_of_isDigit h apostrophe, ne_of_isDigit h '[',
    ne_of_isDigit h '\x7b', ?_⟩
  simp [isGap, ne_of_isDigit h ' ', ne_of_isDigit h '\t']

/-- How a written value starts. -/
theorem display_eq_cons {v : Scalar} (hv : v.Writable) :
    ∃ c cs, v.display.toList = c :: cs ∧
      ((∃ s, v = .text s) ∧ (c = '"' ∨ c = apostrophe) ∨ StartsScalar c) := by
  cases v with
  | text s =>
    obtain ⟨q, cs, hs, hq⟩ := writeText_eq_cons s
    exact ⟨q, cs, hs, .inl ⟨⟨s, rfl⟩, hq⟩⟩
  | integer n =>
    cases n with
    | ofNat m =>
      obtain ⟨c, ds, hds, hc, -⟩ := toDigits_eq_cons m
      exact ⟨c, ds, (toList_display_ofNat m).trans hds, .inr (startsScalar_of_isDigit hc)⟩
    | negSucc m => exact ⟨'-', _, toList_display_negSucc m, .inr (by decide)⟩
  | bool b =>
    cases b with
    | true => exact ⟨'t', ['r', 'u', 'e'], rfl, .inr (by decide)⟩
    | false => exact ⟨'f', ['a', 'l', 's', 'e'], rfl, .inr (by decide)⟩
  | float literal => exact hv.elim
  | time literal => exact hv.elim

theorem readValue_scalar {fuel depth : Nat} {c : Char} {cs : List Char} (hc : StartsScalar c) :
    readValue (fuel + 1) depth (c :: cs) =
      (readScalar (c :: cs)).map fun r => (.scalar r.1, r.2) := by
  obtain ⟨hdouble, hsingle, hbracket, hbrace, -⟩ := hc
  have hquote : (c = '"' || c = apostrophe) = false := by simp [hdouble, hsingle]
  rw [readValue]
  simp only [hquote, hbracket, hbrace, if_false, Bool.false_eq_true]

theorem readScalar_display {v : Scalar} (hv : v.Writable) (htext : ∀ s, v ≠ .text s)
    (h : AtLineEnd rest) : readScalar (v.display.toList ++ rest) = some (v, rest) := by
  cases v with
  | text s => exact absurd rfl (htext s)
  | integer n => exact readScalar_integer hv h
  | bool b => exact readScalar_bool b
  | float literal => exact hv.elim
  | time literal => exact hv.elim

/-- A plain value is read back at the end of a line. -/
theorem readValue_display {v : Scalar} (hv : v.Writable) (h : AtLineEnd rest)
    (fuel depth : Nat) :
    readValue (fuel + 1) depth (v.display.toList ++ rest) = some (.scalar v, rest) := by
  obtain ⟨c, cs, hcs, ⟨⟨s, rfl⟩, hc⟩ | hc⟩ := display_eq_cons hv
  · have hread : readText ((writeText s).toList ++ rest) = some (s.toList, rest) :=
      readText_writeText s fun x hx =>
        ⟨h.ne '"' (by decide) x hx, h.ne apostrophe (by decide) x hx⟩
    have hquote : (c = '"' || c = apostrophe) = true := by simpa using hc
    rw [Scalar.display] at hcs ⊢
    rw [hcs, List.cons_append] at hread ⊢
    rw [readValue]
    simp only [hquote, if_true, hread, Option.map_some, String.ofList_toList]
  · have htext : ∀ s, v ≠ .text s := by
      rintro s rfl
      obtain ⟨q, ds, hds, hq⟩ := writeText_eq_cons s
      obtain ⟨rfl, -⟩ := List.cons_eq_cons.mp (hds.symm.trans hcs)
      exact hq.elim hc.1 hc.2.1
    have hread := readScalar_display hv htext h
    rw [hcs, List.cons_append] at hread ⊢
    rw [readValue_scalar hc, hread]
    rfl

end LineEnds

end Southbound.Toml
