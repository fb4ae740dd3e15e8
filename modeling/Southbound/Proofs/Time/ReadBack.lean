import Mathlib.Algebra.Group.Nat.Defs
import Mathlib.Data.List.Basic
import Mathlib.Data.Option.Basic
import Mathlib.Tactic.SplitIfs
import Southbound.Time.Moment

/-!
# Moments are read as they are displayed

`Moment.ofText?_display` says that a moment whose year can be written is read back from its
text, leap seconds included.  The reader takes one part of the text after the other, and
each part reads the number that was displayed and leaves what follows it.  Every number is
displayed in full width, so a reader that would take fewer digits takes all of them.

Conversely every moment that is read from a text, whatever its offset and its fraction, can
be displayed (`Moment.givesInRange_ofText?`).
-/

namespace Southbound

/-! ## Numbers of full width -/

theorem isDigit_of_mem_padded {width n : Nat} {c : Char} (h : c ∈ (padded width n).toList) :
    c.isDigit = true := by
  rw [padded, String.toList_ofList, List.mem_append] at h
  rcases h with h | h
  · rw [List.eq_of_mem_replicate h]
    rfl
  · exact Nat.isDigit_of_mem_toDigits (by decide) (by decide) h

theorem ofDigitChars_padded (width n : Nat) :
    Nat.ofDigitChars 10 (padded width n).toList 0 = n := by
  rw [padded, String.toList_ofList, Nat.ofDigitChars_append, Nat.ofDigitChars_replicate_zero,
    Nat.mul_zero, Nat.ofDigitChars_ten_toDigits]

theorem length_padded {width n : Nat} (hwidth : 0 < width) (h : n < 10 ^ width) :
    (padded width n).toList.length = width := by
  have hlength : (Nat.toDigits 10 n).length ≤ width :=
    (Nat.length_toDigits_le_iff (by decide) hwidth).mpr h
  rw [padded, String.toList_ofList, List.length_append, List.length_replicate]
  omega

theorem padded_ne_nil (width n : Nat) : (padded width n).toList ≠ [] := by
  rw [padded, String.toList_ofList]
  exact List.append_ne_nil_of_right_ne_nil _ Nat.toDigits_ne_nil

theorem padded_eq_cons (width n : Nat) :
    ∃ c ds, (padded width n).toList = c :: ds ∧ c.isDigit = true := by
  cases hds : (padded width n).toList with
  | nil => exact absurd hds (padded_ne_nil width n)
  | cons c ds => exact ⟨c, ds, rfl, isDigit_of_mem_padded (hds ▸ List.mem_cons_self ..)⟩

/-! ## Parts of a text -/

section Parts

variable {rest : List Char}

theorem skipBlanks_cons {c : Char} (h : isBlankChar c = false) :
    skipBlanks (c :: rest) = c :: rest := by
  simp [skipBlanks, h]

theorem isBlankChar_of_isDigit {c : Char} (h : c.isDigit = true) : isBlankChar c = false := by
  have hrange : 48 ≤ c.toNat ∧ c.toNat ≤ 57 := by
    simpa [Char.isDigit, UInt32.le_iff_toNat_le] using h
  simp only [isBlankChar, Bool.or_eq_false_iff, Bool.and_eq_false_iff, decide_eq_false_iff_not]
  omega

theorem skipBlanks_padded (width n : Nat) :
    skipBlanks ((padded width n).toList ++ rest) = (padded width n).toList ++ rest := by
  obtain ⟨c, ds, hds, hc⟩ := padded_eq_cons width n
  rw [hds]
  exact skipBlanks_cons (isBlankChar_of_isDigit hc)

/-- A number is read to its end: as far as it may go, or up to a character that is no
digit. -/
theorem takeNumber_padded {limit width n : Nat} (hlimit : (padded width n).toList.length ≤ limit)
    (hrest : (padded width n).toList.length = limit ∨ ∀ c ∈ rest.head?, c.isDigit = false) :
    takeNumber limit ((padded width n).toList ++ rest) = some (n, rest) := by
  have hall := fun c => @isDigit_of_mem_padded width n c
  have hvalue := ofDigitChars_padded width n
  have hne := padded_ne_nil width n
  generalize (padded width n).toList = ds at *
  have hmore : (rest.take (limit - ds.length)).takeWhile Char.isDigit = [] := by
    rcases hrest with hfull | hstop
    · rw [hfull, Nat.sub_self, List.take_zero, List.takeWhile_nil]
    · cases rest with
      | nil => rw [List.take_nil, List.takeWhile_nil]
      | cons c rest =>
        have hc := hstop c rfl
        cases limit - ds.length with
        | zero => rfl
        | succ k => simp [hc]
  have htake : ((ds ++ rest).take limit).takeWhile Char.isDigit = ds := by
    rw [List.take_append, List.take_of_length_le hlimit, List.takeWhile_append_of_pos hall, hmore,
      List.append_nil]
  rw [takeNumber, htake]
  split
  next => exact absurd rfl hne
  next => rw [List.drop_left, hvalue]

theorem takeMark_dash (cs : List Char) : takeMark '-' ('-' :: cs) = some cs := rfl

theorem takeMark_colon (cs : List Char) : takeMark ':' (':' :: cs) = some cs := rfl

theorem takeSmall_padded {n : Nat} (h : n < 100) :
    takeSmall ((padded 2 n).toList ++ rest) = some (n, rest) := by
  have hlength : (padded 2 n).toList.length = 2 := length_padded (by decide) h
  rw [takeSmall, skipBlanks_padded]
  exact takeNumber_padded (Nat.le_of_eq hlength) (.inl hlength)

/-- A number that goes up to a mark, however long it is. -/
theorem takeNumber_padded_mark (width n : Nat) (rest : List Char) :
    takeNumber ((padded width n).toList ++ '-' :: rest).length
        ((padded width n).toList ++ '-' :: rest) =
      some (n, '-' :: rest) := by
  refine takeNumber_padded ?_ (.inr ?_)
  · rw [List.length_append]
    exact Nat.le_add_right ..
  · rintro _ ⟨⟩
    rfl

theorem takeYear_minus (cs : List Char) :
    takeYear ('-' :: cs) = (takeNumber cs.length cs).map fun r => (-(r.1 : Int), r.2) := rfl

theorem takeYear_plus (cs : List Char) :
    takeYear ('+' :: cs) = (takeNumber cs.length cs).map fun r => ((r.1 : Int), r.2) := rfl

theorem takeYear_padded {year : Nat} (h : year < 10 ^ 4) :
    takeYear ((padded 4 year).toList ++ rest) = some ((year : Int), rest) := by
  have hlength : (padded 4 year).toList.length = 4 := length_padded (by decide) h
  have hread : takeNumber 4 ((padded 4 year).toList ++ rest) = some (year, rest) :=
    takeNumber_padded (Nat.le_of_eq hlength) (.inl hlength)
  obtain ⟨c, ds, hds, hc⟩ := padded_eq_cons 4 year
  have hsign {sign : Char} {cs : List Char} (hsign : sign.isDigit = false) :
      (padded 4 year).toList ++ rest ≠ sign :: cs := by
    intro heq
    rw [hds, List.cons_append] at heq
    rw [(List.cons_eq_cons.mp heq).1, hsign] at hc
    cases hc
  rw [takeYear, skipBlanks_padded]
  split
  next heq => exact absurd heq (hsign rfl)
  next heq => exact absurd heq (hsign rfl)
  next => rw [hread, Option.map_some]

/-- A year is read up to the month: four digits without a sign, or all digits after one. -/
theorem takeYear_displayYear (year : Int) :
    takeYear ((displayYear year).toList ++ '-' :: rest) = some (year, '-' :: rest) := by
  rw [displayYear]
  split
  next hyear =>
    rw [takeYear_padded (by omega), Int.toNat_of_nonneg hyear.1]
  next hyear =>
    have hread := takeNumber_padded_mark 4 year.natAbs rest
    split
    next hneg =>
      have htext : ("-" ++ padded 4 year.natAbs).toList ++ '-' :: rest =
          '-' :: ((padded 4 year.natAbs).toList ++ '-' :: rest) := by simp
      rw [htext, takeYear_minus, hread]
      have hyear : -(year.natAbs : Int) = year := by omega
      exact congrArg (fun y => some (y, '-' :: rest)) hyear
    next hneg =>
      have htext : ("+" ++ padded 4 year.natAbs).toList ++ '-' :: rest =
          '+' :: ((padded 4 year.natAbs).toList ++ '-' :: rest) := by simp
      rw [htext, takeYear_plus, hread]
      have hyear : (year.natAbs : Int) = year := by omega
      exact congrArg (fun y => some (y, '-' :: rest)) hyear

/-- The digits of a fraction are read with the zeros that were left out after them. -/
theorem takeFraction_padded {digits n : Nat} (hdigits : 0 < digits ∧ digits ≤ 9)
    (h : n < 10 ^ digits) :
    takeFraction ('.' :: ((padded digits n).toList ++ ['Z'])) =
      some (n * Nat.pow 10 (9 - digits), ['Z']) := by
  have hlength := length_padded hdigits.1 h
  have hvalue := ofDigitChars_padded digits n
  have hall := fun c => @isDigit_of_mem_padded digits n c
  have hne := padded_ne_nil digits n
  generalize (padded digits n).toList = ds at *
  have htake : (ds ++ ['Z']).takeWhile Char.isDigit = ds := by
    rw [List.takeWhile_append_of_pos hall]
    exact List.append_nil ds
  have hdrop : (ds ++ ['Z']).dropWhile Char.isDigit = ['Z'] := by
    rw [List.dropWhile_append_of_pos hall]
    rfl
  rw [takeFraction, htake, hdrop]
  split
  next => exact absurd rfl hne
  next =>
    have hnine : ds.take 9 = ds := List.take_of_length_le (by omega)
    dsimp only
    rw [hnine, hvalue, hlength]

theorem takeFraction_displayFraction {nano : Nat} (h : nano < 1000000000) :
    takeFraction ((displayFraction nano).toList ++ ['Z']) = some (nano, ['Z']) := by
  have hpoint (digits n : Nat) : ("." ++ padded digits n).toList ++ ['Z'] =
      '.' :: ((padded digits n).toList ++ ['Z']) := by simp
  unfold displayFraction
  split_ifs with hnone hthree hsix
  · subst hnone
    rfl
  · rw [hpoint, takeFraction_padded (by decide) (by omega)]
    exact congrArg (fun n => some (n, ['Z'])) (show nano / 1000000 * 1000000 = nano by omega)
  · rw [hpoint, takeFraction_padded (by decide) (by omega)]
    exact congrArg (fun n => some (n, ['Z'])) (show nano / 1000 * 1000 = nano by omega)
  · rw [hpoint, takeFraction_padded (by decide) (by omega)]
    exact congrArg (fun n => some (n, ['Z'])) (Nat.mul_one nano)

end Parts

/-! ## Moments -/

namespace Date

theorem of?_self (d : Date) : Date.of? d.year d.month d.day = some d := by
  rw [Date.of?, dif_pos d.month_mem, dif_pos d.day_mem]

theorem day_lt (d : Date) : d.day < 32 := by
  have hday := d.day_mem
  unfold monthLength at hday
  split_ifs at hday <;> omega

end Date

namespace Moment

theorem toList_display (m : Moment) :
    m.display.toList =
      (displayYear m.date.year).toList ++
        '-' :: ((padded 2 m.date.month).toList ++
        '-' :: ((padded 2 m.date.day).toList ++
        'T' :: ((padded 2 (m.second / 3600)).toList ++
        ':' :: ((padded 2 (m.second / 60 % 60)).toList ++
        ':' :: ((padded 2 (m.second % 60 + if 1000000000 ≤ m.nano then 1 else 0)).toList ++
        ((displayFraction (if 1000000000 ≤ m.nano then m.nano - 1000000000 else m.nano)).toList ++
          ['Z'])))))) := by
  simp [Moment.display]

/-- A local time without an offset is universal. -/
theorem ofLocal_zero {m : Moment} {second nano : Nat} (hsecond : second = m.second)
    (hnano : nano = m.nano) (hs : second < 86400) (hn : nano < 2000000000)
    (hl : 1000000000 ≤ nano → second % 60 = 59) (ho : -1440 < (0 : Int) ∧ (0 : Int) < 1440) :
    Moment.ofLocal m.date second nano 0 hs hn hl ho = m := by
  subst hsecond hnano
  have hday : ((m.second : Int) - 60 * 0).toNat = m.second := by omega
  rw [Moment.ofLocal, dif_neg (by omega), dif_neg (by omega)]
  simp only [hday]

/-- A moment that can be displayed is read back. -/
theorem ofText?_display (m : Moment) (h : m.date.inRange = true) :
    Moment.ofText? m.display = some m := by
  have hsecond := m.second_lt
  have hnano := m.nano_lt
  have hleap := m.leap
  have hmonth := m.date.month_mem
  have hday := m.date.day_lt
  -- what is displayed of the last minute, and what is read of it
  obtain ⟨second, hseconds⟩ : ∃ n, n = m.second % 60 + if 1000000000 ≤ m.nano then 1 else 0 :=
    ⟨_, rfl⟩
  obtain ⟨fraction, hfraction⟩ :
      ∃ n, n = if 1000000000 ≤ m.nano then m.nano - 1000000000 else m.nano := ⟨_, rfl⟩
  have hbounds : second ≤ 60 ∧ fraction < 1000000000 := by
    split_ifs at hseconds hfraction <;> omega
  have hsecond' : 3600 * (m.second / 3600) + 60 * (m.second / 60 % 60) + min second 59 =
      m.second := by
    split_ifs at hseconds <;> omega
  have hnano' : (fraction + if second = 60 then 1000000000 else 0) = m.nano := by
    split_ifs at hseconds hfraction ⊢ <;> omega
  unfold Moment.ofText?
  rw [toList_display, ← hseconds, ← hfraction, takeYear_displayYear]
  have hsome {α β : Type} (x : α) (f : α → Option β) : (some x >>= f) = f x := rfl
  have hrange : (guard (m.date.inRange = true) : Option Unit) = some () :=
    (Option.guard_eq_some' ()).mpr h
  simp (disch := omega) only [hsome, takeMark_dash, takeMark_colon, takeSmall_padded,
    takeFraction_displayFraction, Date.of?_self, hrange]
  have hzone : takeOffset (skipBlanks ['Z']) = some (0, []) := rfl
  have hend : (guard ((skipBlanks []).isEmpty = true) : Option Unit) = some () := rfl
  have hclock : m.second / 3600 < 24 ∧ m.second / 60 % 60 < 60 ∧ second ≤ 60 ∧
      fraction < 1000000000 ∧ -1440 < (0 : Int) ∧ (0 : Int) < 1440 := by omega
  simp only [decide_true, Bool.true_or, if_true, hzone, hend, hsome]
  rw [dif_pos hclock]
  simp only [ofLocal_zero hsecond' hnano', h, if_true]
  rfl

/-- Whether every moment that a reader gives can be displayed. -/
def GivesInRange (m? : Option Moment) : Prop := ∀ m ∈ m?, m.date.inRange = true

theorem GivesInRange.bind {α : Type} {o : Option α} {f : α → Option Moment}
    (h : ∀ x, GivesInRange (f x)) : GivesInRange (o >>= f) := by
  intro m hm
  obtain ⟨x, -, hx⟩ := Option.bind_eq_some_iff.mp hm
  exact h x m hx

theorem GivesInRange.guarded {p : Prop} [Decidable p] {f : p → Moment} :
    GivesInRange (if h : p then if (f h).date.inRange then pure (f h) else none else none) := by
  by_cases h : p
  · rw [dif_pos h]
    split
    next hrange =>
      rintro _ ⟨⟩
      exact hrange
    next => nofun
  · rw [dif_neg h]
    nofun

/-- Whatever the parts of a text are, the date is looked at once more after the offset has
been taken off. -/
theorem givesInRange_ofText? (s : String) : GivesInRange (Moment.ofText? s) := by
  unfold Moment.ofText?
  refine .bind fun year => .bind fun _ => .bind fun month => .bind fun _ => .bind fun day => ?_
  dsimp only
  split
  case' h_1 => split
  all_goals
    exact .bind fun _ => .bind fun hour => .bind fun _ => .bind fun minute => .bind fun _ =>
      .bind fun second => .bind fun fraction => .bind fun offset => .bind fun _ =>
      .bind fun date => .bind fun _ => .guarded

end Moment

end Southbound
