import Southbound.Toml.Basic

/-!
# Texts of settings documents

A text is written in one of four ways: basic between double quotes, with
escapes; literal between single quotes, without; and both over several lines
between triple quotes.  `readText` reads each of them, and `writeText` chooses
the first that shows the text best:

* basic, if nothing has to be escaped but tabulators;
* literal, if there is no single quote, line feed or control character;
* basic over several lines, if there is no backslash, no control character and
  no run of three double quotes;
* literal over several lines, if there is no control character and no run of
  three single quotes;
* otherwise basic with escapes, over several lines if there is a line feed.
-/

namespace Southbound.Toml

/-! ## Characters -/

def apostrophe : Char := '\x27'

/-- A tabulator, or a character that is no control character. -/
def isPlain (c : Char) : Bool := c = '\t' || (32 ≤ c.toNat && c.toNat ≠ 127)

def isGap (c : Char) : Bool := c = ' ' || c = '\t'

def hexDigitValue (c : Char) : Option Nat :=
  if '0' ≤ c && c ≤ '9' then some (c.toNat - 48)
  else if 'a' ≤ c && c ≤ 'f' then some (c.toNat - 87)
  else if 'A' ≤ c && c ≤ 'F' then some (c.toNat - 55)
  else none

def hexNumber (cs : List Char) : Option Nat :=
  cs.foldlM (fun n c => (hexDigitValue c).map (16 * n + ·)) 0

/-- The character whose number hexadecimal digits write. -/
def charOfHex (cs : List Char) : Option Char :=
  (hexNumber cs).bind fun n => if n.isValidChar then some (Char.ofNat n) else none

/-- The character that a backslash and a letter write. -/
def escapedChar (c : Char) : Option Char :=
  if c = 'b' then some '\x08'
  else if c = 't' then some '\t'
  else if c = 'n' then some '\n'
  else if c = 'f' then some '\x0c'
  else if c = 'r' then some '\x0d'
  else if c = '"' then some '"'
  else if c = '\\' then some '\\'
  else none

/-- A character before what a reader gives. -/
def before (c : Char) (r : Option (List Char × List Char)) : Option (List Char × List Char) :=
  r.map fun r => (c :: r.1, r.2)

/-! ## Reading on one line -/

/-- A basic text after its opening quote, and what follows it. -/
def readBasic : List Char → Option (List Char × List Char)
  | [] => none
  | c :: cs =>
    if c = '"' then some ([], cs)
    else if c = '\\' then
      match cs with
      | [] => none
      | e :: cs =>
        if e = 'u' then
          match cs with
          | h₁ :: h₂ :: h₃ :: h₄ :: cs =>
            match charOfHex [h₁, h₂, h₃, h₄] with
            | none => none
            | some x => before x (readBasic cs)
          | _ => none
        else if e = 'U' then
          match cs with
          | h₁ :: h₂ :: h₃ :: h₄ :: h₅ :: h₆ :: h₇ :: h₈ :: cs =>
            match charOfHex [h₁, h₂, h₃, h₄, h₅, h₆, h₇, h₈] with
            | none => none
            | some x => before x (readBasic cs)
          | _ => none
        else
          match escapedChar e with
          | none => none
          | some x => before x (readBasic cs)
    else if isPlain c then before c (readBasic cs)
    else none

/-- A literal text after its opening quote, and what follows it. -/
def readLiteral : List Char → Option (List Char × List Char)
  | [] => none
  | c :: cs =>
    if c = apostrophe then some ([], cs)
    else if isPlain c then before c (readLiteral cs)
    else none

/-! ## Reading over several lines -/

/-- What follows two more quotes, if they come next. -/
def afterTwo (q : Char) : List Char → Option (List Char)
  | a :: b :: cs => if a = q && b = q then some cs else none
  | _ => none

/-- Up to two quotes that stand right before the closing ones, and what follows
the closing ones. -/
def closingQuotes (q : Char) : List Char → List Char × List Char
  | [] => ([], [])
  | [a] => if a = q then ([q], []) else ([], [a])
  | a :: b :: cs =>
    if a = q then (if b = q then ([q, q], cs) else ([q], b :: cs)) else ([], a :: b :: cs)

/-- Whether a line ends after some gaps. -/
def endsLine (cs : List Char) : Bool :=
  match cs.dropWhile isGap with
  | '\n' :: _ => true
  | '\x0d' :: '\n' :: _ => true
  | _ => false

/-- A basic text over several lines, and what follows it.  While `skipping`,
gaps and ends of lines are passed over. -/
def readBasicLines (skipping : Bool) : List Char → Option (List Char × List Char)
  | [] => none
  | c :: cs =>
    if skipping && (isGap c || c = '\n') then readBasicLines true cs
    else if c = '"' then
      match afterTwo '"' cs with
      | some cs => some (closingQuotes '"' cs)
      | none => before '"' (readBasicLines false cs)
    else if c = '\\' then
      match cs with
      | [] => none
      | e :: cs =>
        if e = 'u' then
          match cs with
          | h₁ :: h₂ :: h₃ :: h₄ :: cs =>
            match charOfHex [h₁, h₂, h₃, h₄] with
            | none => none
            | some x => before x (readBasicLines false cs)
          | _ => none
        else if e = 'U' then
          match cs with
          | h₁ :: h₂ :: h₃ :: h₄ :: h₅ :: h₆ :: h₇ :: h₈ :: cs =>
            match charOfHex [h₁, h₂, h₃, h₄, h₅, h₆, h₇, h₈] with
            | none => none
            | some x => before x (readBasicLines false cs)
          | _ => none
        else
          match escapedChar e with
          | some x => before x (readBasicLines false cs)
          | none => if endsLine (e :: cs) then readBasicLines true (e :: cs) else none
    else if c = '\x0d' then
      match cs with
      | d :: cs =>
        if d = '\n' then
          if skipping then readBasicLines true cs else before '\n' (readBasicLines false cs)
        else none
      | [] => none
    else if c = '\n' || isPlain c then before c (readBasicLines false cs)
    else none

/-- A literal text over several lines, and what follows it. -/
def readLiteralLines : List Char → Option (List Char × List Char)
  | [] => none
  | c :: cs =>
    if c = apostrophe then
      match afterTwo apostrophe cs with
      | some cs => some (closingQuotes apostrophe cs)
      | none => before c (readLiteralLines cs)
    else if c = '\x0d' then
      match cs with
      | d :: cs => if d = '\n' then before '\n' (readLiteralLines cs) else none
      | [] => none
    else if c = '\n' || isPlain c then before c (readLiteralLines cs)
    else none

/-- The characters after an end of line, if they start with one. -/
def skipLineEnd : List Char → List Char
  | '\n' :: cs => cs
  | '\x0d' :: '\n' :: cs => cs
  | cs => cs

/-- A text, whichever way it is written, and what follows it. -/
def readText : List Char → Option (List Char × List Char)
  | [] => none
  | c :: cs =>
    if c = '"' then
      match afterTwo '"' cs with
      | some cs => readBasicLines false (skipLineEnd cs)
      | none => readBasic cs
    else if c = apostrophe then
      match afterTwo apostrophe cs with
      | some cs => readLiteralLines (skipLineEnd cs)
      | none => readLiteral cs
    else none

/-! ## Writing -/

/-- Whether a character has to be escaped wherever it stands: a control
character that is no tabulator or line feed. -/
def needsEscape (c : Char) : Bool := !isPlain c && c ≠ '\n'

/-- The length of the longest run of a character, where `current` of them come
before. -/
def longestRun (q : Char) (current : Nat) : List Char → Nat
  | [] => current
  | c :: cs =>
    if c = q then longestRun q (current + 1) cs else max current (longestRun q 0 cs)

/-- The four ways to write a text. -/
inductive TextStyle where
  | basic
  | literal
  | basicLines
  | literalLines
deriving DecidableEq, Repr

/-- The way in which a text is shown best. -/
def styleOf (cs : List Char) : TextStyle :=
  let control := cs.any needsEscape
  let backslash := cs.contains '\\'
  let lines := cs.contains '\n'
  let double := longestRun '"' 0 cs
  let single := longestRun apostrophe 0 cs
  if !control && !backslash && double = 0 && !lines then .basic
  else if !control && single = 0 && !lines then .literal
  else if !control && !backslash && double ≤ 2 then .basicLines
  else if !control && single ≤ 2 then .literalLines
  else if lines then .basicLines
  else .basic

/-- The hexadecimal digits of a number below `16 ^ 4`; letters are capital. -/
def fourHexDigits (n : Nat) : List Char :=
  [n / 4096, n / 256 % 16, n / 16 % 16, n % 16].map fun d =>
    if d < 10 then Char.ofNat (48 + d) else Char.ofNat (55 + d)

/-- A character other than a double quote as a basic text writes it. -/
def basicChar (multiline : Bool) (c : Char) : List Char :=
  if c = '\x08' then ['\\', 'b']
  else if c = '\t' then ['\\', 't']
  else if c = '\n' then (if multiline then ['\n'] else ['\\', 'n'])
  else if c = '\x0c' then ['\\', 'f']
  else if c = '\x0d' then ['\\', 'r']
  else if c = '\\' then ['\\', '\\']
  else if needsEscape c then '\\' :: 'u' :: fourHexDigits c.toNat
  else [c]

/-- The characters of a basic text.  A double quote is escaped where `allowed`
of them stand before it in a row, and so is the count after any escape. -/
def basicBody (multiline : Bool) (allowed run : Nat) : List Char → List Char
  | [] => []
  | c :: cs =>
    if c = '"' then
      if allowed < run + 1 then '\\' :: '"' :: basicBody multiline allowed 0 cs
      else '"' :: basicBody multiline allowed (run + 1) cs
    else basicChar multiline c ++ basicBody multiline allowed 0 cs

def writeStyled (style : TextStyle) (cs : List Char) : List Char :=
  let start := if cs.contains '\n' then ['\n'] else []
  let single := [apostrophe, apostrophe, apostrophe]
  let double := ['"', '"', '"']
  match style with
  | .basic => '"' :: (basicBody false 0 0 cs ++ ['"'])
  | .literal => apostrophe :: (cs ++ [apostrophe])
  | .basicLines => double ++ start ++ basicBody true 2 0 cs ++ double
  | .literalLines => single ++ start ++ cs ++ single

/-- A text in the way that shows it best. -/
def writeText (s : String) : String :=
  String.ofList (writeStyled (styleOf s.toList) s.toList)

end Southbound.Toml
