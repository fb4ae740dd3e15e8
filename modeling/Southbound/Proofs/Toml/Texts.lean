import Mathlib.Tactic.SplitIfs
import Southbound.Toml.Text

/-!
# Texts of settings documents are read back

`readText_writeText` says that a text is read back whatever its characters are, in front
of anything but a quote.

The writer chooses one of four forms, and each is read back for a reason of its own.

* A basic text escapes what its reader would take for something else.  Readers with
  escapes have three steps in common (`TakesEscapes`), and with them each character other
  than a quote comes back (`TakesEscapes.basicChar`).
* A literal text is only chosen where no character needs an escape and no quote is there.
* Over several lines up to two quotes may stand in a row.  Two things are shown of readers
  that close with three quotes (`ClosesLines`): up to two quotes before another character
  are taken as they are, and so are up to two right before the closing ones.
-/

namespace Southbound.Toml

/-! ## Characters -/

@[simp] theorem before_some (c : Char) (cs rest : List Char) :
    before c (some (cs, rest)) = some (c :: cs, rest) := rfl

theorem isPlain_of_not_needsEscape {c : Char} (h : needsEscape c = false) (hline : c ≠ '\n') :
    isPlain c = true := by
  simpa [needsEscape, hline] using h

/-- What has to be escaped is a control character. -/
theorem toNat_lt_of_needsEscape {c : Char} (h : needsEscape c = true) : c.toNat < 128 := by
  simp only [needsEscape, isPlain, Bool.and_eq_true, Bool.not_eq_true', Bool.or_eq_false_iff,
    Bool.and_eq_false_iff, decide_eq_false_iff_not] at h
  omega

/-- The four digits of a control character are read as that character. -/
theorem charOfHex_fourHexDigits {c : Char} (h : needsEscape c = true) :
    charOfHex (fourHexDigits c.toNat) = some c := by
  have hall : ∀ n < 128, charOfHex (fourHexDigits n) = some (Char.ofNat n) := by decide +kernel
  rw [hall c.toNat (toNat_lt_of_needsEscape h), Char.ofNat_toNat]

/-! ## Readers with escapes -/

/-- A reader of a text that takes escapes for what they stand for, and plain characters
for themselves. -/
structure TakesEscapes (read : List Char → Option (List Char × List Char)) : Prop where
  short {e x : Char} (h : escapedChar e = some x) (rest : List Char) :
    read ('\\' :: e :: rest) = before x (read rest)
  unit {h₁ h₂ h₃ h₄ x : Char} (h : charOfHex [h₁, h₂, h₃, h₄] = some x) (rest : List Char) :
    read ('\\' :: 'u' :: h₁ :: h₂ :: h₃ :: h₄ :: rest) = before x (read rest)
  plain {c : Char} (hquote : c ≠ '"') (hslash : c ≠ '\\') (h : isPlain c = true)
    (rest : List Char) : read (c :: rest) = before c (read rest)

/-- The letters that start hexadecimal digits are no escapes of their own. -/
theorem ne_of_escapedChar {e x : Char} (h : escapedChar e = some x) : e ≠ 'u' ∧ e ≠ 'U' := by
  constructor <;> rintro rfl <;> cases h

theorem takesEscapes_basic : TakesEscapes readBasic where
  short h rest := by
    have hslash : ¬ '\\' = '"' := by decide
    obtain ⟨hu, hU⟩ := ne_of_escapedChar h
    rw [readBasic.eq_def]
    simp only [hslash, hu, hU, h, if_false, if_true]
  unit h rest := by
    have hslash : ¬ '\\' = '"' := by decide
    rw [readBasic.eq_def]
    simp only [hslash, h, if_false, if_true]
  plain hquote hslash h rest := by
    rw [readBasic.eq_def]
    simp only [hquote, hslash, h, if_false, if_true]

theorem takesEscapes_basicLines : TakesEscapes (readBasicLines false) where
  short h rest := by
    have hslash : ¬ '\\' = '"' := by decide
    obtain ⟨hu, hU⟩ := ne_of_escapedChar h
    rw [readBasicLines.eq_def]
    simp only [hslash, hu, hU, h, if_false, if_true, Bool.false_and, Bool.false_eq_true]
  unit h rest := by
    have hslash : ¬ '\\' = '"' := by decide
    rw [readBasicLines.eq_def]
    simp only [hslash, h, if_false, if_true, Bool.false_and, Bool.false_eq_true]
  plain {c} hquote hslash h rest := by
    have hreturn : c ≠ '\x0d' := by
      rintro rfl
      cases h
    rw [readBasicLines.eq_def]
    simp only [hquote, hslash, hreturn, h, if_false, if_true, Bool.false_and, Bool.or_true,
      Bool.false_eq_true]

/-- A line feed stands for itself in a text over several lines. -/
theorem readBasicLines_lineFeed (rest : List Char) :
    readBasicLines false ('\n' :: rest) = before '\n' (readBasicLines false rest) := by
  rw [readBasicLines.eq_def]
  rfl

/-- A written character is read as that character. -/
theorem TakesEscapes.basicChar {read : List Char → Option (List Char × List Char)}
    (h : TakesEscapes read) (multiline : Bool)
    (hline : multiline = true → ∀ rest, read ('\n' :: rest) = before '\n' (read rest))
    {c : Char} (hquote : c ≠ '"') (rest : List Char) :
    read (basicChar multiline c ++ rest) = before c (read rest) := by
  unfold Toml.basicChar
  split_ifs with h8 htab hfeed hmulti h12 h13 hslash hescape
  · subst c
    exact h.short rfl rest
  · subst c
    exact h.short rfl rest
  · subst c
    exact hline hmulti rest
  · subst c
    exact h.short rfl rest
  · subst c
    exact h.short rfl rest
  · subst c
    exact h.short rfl rest
  · subst c
    exact h.short rfl rest
  · exact h.unit (charOfHex_fourHexDigits hescape) rest
  · have hplain := isPlain_of_not_needsEscape (eq_false_of_ne_true hescape) hfeed
    exact h.plain hquote hslash hplain rest

/-! ## Basic texts -/

/-- A basic text is read back up to its closing quote. -/
theorem readBasic_basicBody (run : Nat) (cs rest : List Char) :
    readBasic (basicBody false 0 run cs ++ '"' :: rest) = some (cs, rest) := by
  induction cs generalizing run with
  | nil =>
    rw [basicBody, List.nil_append, readBasic.eq_def]
    rfl
  | cons c cs ih =>
    rw [basicBody]
    split
    next hquote =>
      subst c
      rw [if_pos (Nat.succ_pos run), List.cons_append, List.cons_append,
        takesEscapes_basic.short rfl, ih, before_some]
    next hquote =>
      have hread := takesEscapes_basic.basicChar false nofun hquote
        (basicBody false 0 0 cs ++ '"' :: rest)
      rw [List.append_assoc, hread, ih, before_some]

/-- Between single quotes every plain character stands for itself. -/
theorem readLiteral_append {cs : List Char} (h : ∀ c ∈ cs, isPlain c = true ∧ c ≠ apostrophe)
    (rest : List Char) : readLiteral (cs ++ apostrophe :: rest) = some (cs, rest) := by
  induction cs with
  | nil => rfl
  | cons c cs ih =>
    rw [List.forall_mem_cons] at h
    rw [List.cons_append, readLiteral, if_neg h.1.2, if_pos h.1.1, ih h.2, before_some]

/-! ## Closing quotes -/

/-- A reader of a text over several lines, which three quotes close. -/
def ClosesLines (q : Char) (read : List Char → Option (List Char × List Char)) : Prop :=
  ∀ cs, read (q :: cs) =
    match afterTwo q cs with
    | some cs => some (closingQuotes q cs)
    | none => before q (read cs)

theorem closesLines_basic : ClosesLines '"' (readBasicLines false) := by
  intro cs
  rw [readBasicLines.eq_def]
  rfl

theorem closesLines_literal : ClosesLines apostrophe readLiteralLines := by
  intro cs
  rw [readLiteralLines.eq_def]
  rfl

/-- Up to two quotes in a row. -/
theorem replicate_cases {run : Nat} (h : run ≤ 2) (q : Char) :
    List.replicate run q = [] ∨ List.replicate run q = [q] ∨ List.replicate run q = [q, q] := by
  match run, h with
  | 0, _ => exact .inl rfl
  | 1, _ => exact .inr (.inl rfl)
  | 2, _ => exact .inr (.inr rfl)

section Closing

variable {q : Char} {read : List Char → Option (List Char × List Char)} {run : Nat}

/-- Up to two quotes before another character are taken as they are. -/
theorem ClosesLines.quotes (h : ClosesLines q read) (hrun : run ≤ 2) {x : Char} (hx : x ≠ q)
    (tail : List Char) :
    read (List.replicate run q ++ x :: tail) =
      (read (x :: tail)).map fun r => (List.replicate run q ++ r.1, r.2) := by
  have hone (cs : List Char) : afterTwo q (x :: cs) = none := by
    cases cs <;> simp [afterTwo, hx]
  have htwo : afterTwo q (q :: x :: tail) = none := by simp [afterTwo, hx]
  rcases replicate_cases hrun q with he | he | he
  · rw [he, List.nil_append]
    cases read (x :: tail) <;> rfl
  · rw [he, List.cons_append, List.nil_append, h, hone]
    cases read (x :: tail) <;> rfl
  · rw [he, List.cons_append, List.cons_append, List.nil_append, h, htwo, h, hone]
    cases read (x :: tail) <;> rfl

/-- Up to two quotes right before the closing ones are taken as they are. -/
theorem ClosesLines.closing (h : ClosesLines q read) (hrun : run ≤ 2) {rest : List Char}
    (hrest : ∀ c ∈ rest.head?, c ≠ q) :
    read (List.replicate run q ++ q :: q :: q :: rest) = some (List.replicate run q, rest) := by
  have hstart (cs : List Char) : afterTwo q (q :: q :: cs) = some cs := by simp [afterTwo]
  rcases replicate_cases hrun q with he | he | he
  · rw [he, List.nil_append, h, hstart]
    match rest, hrest with
    | [], _ => rfl
    | [a], hrest => simp [closingQuotes, hrest a rfl]
    | a :: b :: cs, hrest => simp [closingQuotes, hrest a rfl]
  · rw [he, List.cons_append, List.nil_append, h, hstart]
    match rest, hrest with
    | [], _ => simp [closingQuotes]
    | a :: cs, hrest => simp [closingQuotes, hrest a rfl]
  · rw [he, List.cons_append, List.cons_append, List.nil_append, h, hstart]
    simp [closingQuotes]

end Closing

/-! ## Texts over several lines -/

/-- What a character is written as does not start with a quote. -/
theorem basicChar_eq_cons (multiline : Bool) {c : Char} (hquote : c ≠ '"') :
    ∃ x tail, basicChar multiline c = x :: tail ∧ x ≠ '"' ∧ x ≠ '\x0d' ∧
      (x = '\n' → c = '\n') := by
  unfold basicChar
  split_ifs with h8 htab hfeed hmulti h12 h13 hslash hescape
  · exact ⟨'\\', ['b'], rfl, by decide, by decide, nofun⟩
  · exact ⟨'\\', ['t'], rfl, by decide, by decide, nofun⟩
  · exact ⟨'\n', [], rfl, by decide, by decide, fun _ => hfeed⟩
  · exact ⟨'\\', ['n'], rfl, by decide, by decide, nofun⟩
  · exact ⟨'\\', ['f'], rfl, by decide, by decide, nofun⟩
  · exact ⟨'\\', ['r'], rfl, by decide, by decide, nofun⟩
  · exact ⟨'\\', ['\\'], rfl, by decide, by decide, nofun⟩
  · exact ⟨'\\', 'u' :: fourHexDigits c.toNat, rfl, by decide, by decide, nofun⟩
  · exact ⟨c, [], rfl, hquote, h13, id⟩

/-- A basic text over several lines is read back, with the quotes that stand before what
is left of it. -/
theorem readBasicLines_basicBody {run : Nat} (hrun : run ≤ 2) (cs : List Char)
    {rest : List Char} (hrest : ∀ c ∈ rest.head?, c ≠ '"') :
    readBasicLines false
        (List.replicate run '"' ++ (basicBody true 2 run cs ++ '"' :: '"' :: '"' :: rest)) =
      some (List.replicate run '"' ++ cs, rest) := by
  induction cs generalizing run with
  | nil =>
    rw [basicBody, List.nil_append, List.append_nil]
    exact closesLines_basic.closing hrun hrest
  | cons c cs ih =>
    rw [basicBody]
    split
    next hquote =>
      subst c
      split
      next hescape =>
        -- a third quote in a row, which is escaped
        rw [List.cons_append, closesLines_basic.quotes hrun (by decide), List.cons_append,
          takesEscapes_basicLines.short rfl]
        have hbody := ih (Nat.zero_le 2)
        rw [List.replicate_zero, List.nil_append, List.nil_append] at hbody
        rw [hbody]
        rfl
      next hescape =>
        have hbody := ih (show run + 1 ≤ 2 by omega)
        rw [List.replicate_succ', List.append_assoc, List.append_assoc] at hbody
        exact hbody
    next hquote =>
      obtain ⟨x, tail, hx, hne, -, -⟩ := basicChar_eq_cons true hquote
      have hread := takesEscapes_basicLines.basicChar true
        (fun _ => readBasicLines_lineFeed) hquote
        (basicBody true 2 0 cs ++ '"' :: '"' :: '"' :: rest)
      have hbody := ih (Nat.zero_le 2)
      rw [List.replicate_zero, List.nil_append, List.nil_append] at hbody
      rw [hbody, hx, List.cons_append] at hread
      rw [hx, List.cons_append, List.cons_append, closesLines_basic.quotes hrun hne,
        List.append_assoc, hread]
      rfl

/-- Over several lines every character that needs no escape stands for itself. -/
theorem readLiteralLines_cons {c : Char} (hquote : c ≠ apostrophe) (h : needsEscape c = false)
    (rest : List Char) : readLiteralLines (c :: rest) = before c (readLiteralLines rest) := by
  have hreturn : c ≠ '\x0d' := by
    rintro rfl
    cases h
  have hplain : (c = '\n' || isPlain c) = true := by
    by_cases hline : c = '\n'
    · simp [hline]
    · simp [isPlain_of_not_needsEscape h hline]
  rw [readLiteralLines.eq_def]
  simp only [hquote, hreturn, hplain, if_false, if_true]

theorem le_longestRun (q : Char) (run : Nat) (cs : List Char) : run ≤ longestRun q run cs := by
  induction cs generalizing run with
  | nil => exact Nat.le_refl run
  | cons c cs ih =>
    rw [longestRun]
    split
    · exact Nat.le_trans (Nat.le_succ run) (ih (run + 1))
    · exact Nat.le_max_left ..

/-- A literal text over several lines is read back, with the quotes that stand before what
is left of it. -/
theorem readLiteralLines_append {run : Nat} {cs : List Char}
    (h : ∀ c ∈ cs, needsEscape c = false) (hrun : longestRun apostrophe run cs ≤ 2)
    {rest : List Char} (hrest : ∀ c ∈ rest.head?, c ≠ apostrophe) :
    readLiteralLines (List.replicate run apostrophe ++
        (cs ++ apostrophe :: apostrophe :: apostrophe :: rest)) =
      some (List.replicate run apostrophe ++ cs, rest) := by
  have hshort := Nat.le_trans (le_longestRun apostrophe run cs) hrun
  induction cs generalizing run with
  | nil =>
    rw [List.nil_append, List.append_nil]
    exact closesLines_literal.closing hshort hrest
  | cons c cs ih =>
    rw [List.forall_mem_cons] at h
    rw [longestRun] at hrun
    split at hrun
    next hquote =>
      have hbody := ih h.2 hrun (Nat.le_trans (le_longestRun ..) hrun)
      rw [List.replicate_succ', List.append_assoc, List.append_assoc] at hbody
      exact hquote ▸ hbody
    next hquote =>
      have hshorter : longestRun apostrophe 0 cs ≤ 2 := Nat.le_trans (Nat.le_max_right ..) hrun
      have hbody := ih h.2 hshorter (Nat.zero_le 2)
      rw [List.replicate_zero, List.nil_append, List.nil_append] at hbody
      rw [List.cons_append, closesLines_literal.quotes hshort hquote,
        readLiteralLines_cons hquote h.1, hbody]
      rfl

/-! ## The choice of a form -/

theorem notMem_of_longestRun {q : Char} {cs : List Char} (h : longestRun q 0 cs = 0) :
    q ∉ cs := by
  induction cs with
  | nil => exact List.not_mem_nil
  | cons c cs ih =>
    rw [longestRun] at h
    split at h
    next =>
      have := le_longestRun q (0 + 1) cs
      omega
    next hne =>
      have hrest : longestRun q 0 cs = 0 := by omega
      exact List.not_mem_cons_of_ne_of_not_mem (Ne.symm hne) (ih hrest)

/-- What is known of a text that is written without escapes. -/
def Suits (cs : List Char) : TextStyle → Prop
  | .basic => True
  | .literal => (∀ c ∈ cs, isPlain c = true ∧ c ≠ apostrophe)
  | .basicLines => True
  | .literalLines => (∀ c ∈ cs, needsEscape c = false) ∧ longestRun apostrophe 0 cs ≤ 2

theorem suits_styleOf (cs : List Char) : Suits cs (styleOf cs) := by
  have hall (h : cs.any needsEscape = false) : ∀ c ∈ cs, needsEscape c = false := by
    simpa using h
  unfold styleOf
  dsimp only
  split_ifs with hbasic hliteral hbasicLines hliteralLines hlines
  · trivial
  · simp only [Bool.and_eq_true, Bool.not_eq_true', decide_eq_true_eq] at hliteral
    obtain ⟨⟨hcontrol, hrun⟩, hfeed⟩ := hliteral
    have hfeed : '\n' ∉ cs := by simpa using hfeed
    intro c hc
    refine ⟨isPlain_of_not_needsEscape (hall hcontrol c hc) ?_, ?_⟩
    · rintro rfl
      exact hfeed hc
    · rintro rfl
      exact notMem_of_longestRun hrun hc
  · trivial
  · simp only [Bool.and_eq_true, Bool.not_eq_true', decide_eq_true_eq] at hliteralLines
    exact ⟨hall hliteralLines.1, hliteralLines.2⟩
  · trivial
  · trivial

/-! ## Texts -/

/-- The line end that starts a text over several lines is passed over, and a text that
has none does not start with one. -/
theorem skipLineEnd_start {cs body : List Char}
    (h : ∀ c ∈ body.head?, c ≠ '\x0d' ∧ (c = '\n' → '\n' ∈ cs)) :
    skipLineEnd ((if cs.contains '\n' then ['\n'] else []) ++ body) = body := by
  by_cases hline : '\n' ∈ cs
  · rw [if_pos (List.contains_iff_mem.mpr hline)]
    rfl
  · rw [if_neg fun hc => hline (List.contains_iff_mem.mp hc), List.nil_append]
    unfold skipLineEnd
    split
    · exact absurd ((h '\n' rfl).2 rfl) hline
    · exact absurd rfl (h '\x0d' rfl).1
    · rfl

/-- What follows the opening quotes of a text is none of them. -/
theorem afterTwo_eq_none {q : Char} {body rest : List Char} (hbody : ∀ c ∈ body.head?, c ≠ q)
    (hrest : ∀ c ∈ rest.head?, c ≠ q) : afterTwo q (body ++ q :: rest) = none := by
  match body, rest, hrest with
  | [], [], _ => rfl
  | [], a :: cs, hrest => simp [afterTwo, hrest a rfl]
  | [b], _, _ => simp [afterTwo, hbody b rfl]
  | b :: b' :: bs, _, _ => simp [afterTwo, hbody b rfl]

theorem head_basicBody_ne {cs : List Char} :
    ∀ c ∈ (basicBody false 0 0 cs).head?, c ≠ '"' := by
  cases cs with
  | nil => nofun
  | cons c cs =>
    rw [basicBody]
    split
    next hquote => simp
    next hquote =>
      obtain ⟨x, tail, hx, hne, -⟩ := basicChar_eq_cons false hquote
      rw [hx]
      rintro _ ⟨⟩
      exact hne

theorem head_basicBody_lines {cs rest : List Char} :
    ∀ c ∈ (basicBody true 2 0 cs ++ '"' :: rest).head?, c ≠ '\x0d' ∧ (c = '\n' → '\n' ∈ cs) := by
  cases cs with
  | nil =>
    rintro _ ⟨⟩
    exact ⟨by decide, nofun⟩
  | cons c cs =>
    rw [basicBody]
    split
    next hquote =>
      rintro _ ⟨⟩
      exact ⟨by decide, nofun⟩
    next hquote =>
      obtain ⟨x, tail, hx, -, hreturn, hfeed⟩ := basicChar_eq_cons true hquote
      rw [hx]
      rintro _ ⟨⟩
      exact ⟨hreturn, fun h => hfeed h ▸ List.mem_cons_self ..⟩

/-- A text is read back in each form that suits it, in front of anything but a quote. -/
theorem readText_writeStyled {cs : List Char} {style : TextStyle} (h : Suits cs style)
    {rest : List Char} (hrest : ∀ c ∈ rest.head?, c ≠ '"' ∧ c ≠ apostrophe) :
    readText (writeStyled style cs ++ rest) = some (cs, rest) := by
  have hdouble : ∀ c ∈ rest.head?, c ≠ '"' := fun c hc => (hrest c hc).1
  have hsingle : ∀ c ∈ rest.head?, c ≠ apostrophe := fun c hc => (hrest c hc).2
  have hquotes : ¬ apostrophe = '"' := by decide
  have hstart (q : Char) (tail : List Char) : afterTwo q (q :: q :: tail) = some tail := by
    simp [afterTwo]
  cases style with
  | basic =>
    simp only [writeStyled, List.cons_append, List.append_assoc, List.nil_append]
    rw [readText, if_pos rfl, afterTwo_eq_none head_basicBody_ne hdouble]
    exact readBasic_basicBody 0 cs rest
  | literal =>
    have hhead : ∀ c ∈ cs.head?, c ≠ apostrophe := fun c hc => (h c (List.mem_of_mem_head? hc)).2
    simp only [writeStyled, List.cons_append, List.append_assoc, List.nil_append]
    rw [readText, if_neg hquotes, if_pos rfl, afterTwo_eq_none hhead hsingle]
    exact readLiteral_append h rest
  | basicLines =>
    simp only [writeStyled, List.cons_append, List.append_assoc, List.nil_append]
    rw [readText, if_pos rfl, hstart]
    dsimp only
    rw [skipLineEnd_start head_basicBody_lines]
    exact readBasicLines_basicBody (Nat.zero_le 2) cs hdouble
  | literalLines =>
    have hhead (tail : List Char) :
        ∀ c ∈ (cs ++ apostrophe :: tail).head?, c ≠ '\x0d' ∧ (c = '\n' → '\n' ∈ cs) := by
      cases cs with
      | nil =>
        rintro _ ⟨⟩
        exact ⟨by decide, nofun⟩
      | cons c cs =>
        rintro _ ⟨⟩
        have hc := h.1 c (List.mem_cons_self ..)
        refine ⟨?_, fun hline => hline ▸ List.mem_cons_self ..⟩
        rintro rfl
        cases hc
    simp only [writeStyled, List.cons_append, List.append_assoc, List.nil_append]
    rw [readText, if_neg hquotes, if_pos rfl, hstart]
    dsimp only
    rw [skipLineEnd_start (hhead _)]
    have hread := readLiteralLines_append h.1 h.2 hsingle
    exact hread

/-- A text is read back as it was written, whatever its characters are. -/
theorem readText_writeText (s : String) {rest : List Char}
    (hrest : ∀ c ∈ rest.head?, c ≠ '"' ∧ c ≠ apostrophe) :
    readText ((writeText s).toList ++ rest) = some (s.toList, rest) := by
  rw [writeText, String.toList_ofList]
  exact readText_writeStyled (suits_styleOf s.toList) hrest

end Southbound.Toml
