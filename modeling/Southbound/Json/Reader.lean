import Southbound.Json.Basic

/-!
# Reading documents

`Json.read` reads octets as one document with blanks around it (RFC 8259).
There are no comments, no trailing commas, no leading zeros and no raw control
characters in texts.

Each reader takes the octets that are left and gives a value with the octets
after it.  A text is read in two steps: `stringPieces` finds its end and splits
it into octets and `\u` units, and `assemble` joins surrogate pairs.  Arrays
and objects nest without a limit, so the reader of values takes a bound on the
number of its calls, and twice the number of octets is enough of them.
-/

namespace Southbound.Json

/-! ## Blanks, digits and words -/

/-- Space, tabulator, line feed and carriage return. -/
def isBlank (b : UInt8) : Bool := b = 32 || b = 9 || b = 10 || b = 13

def isDigit (b : UInt8) : Bool := 48 ≤ b && b ≤ 57

/-- The octets from the first that is not blank. -/
def skipBlank (input : List UInt8) : List UInt8 := input.dropWhile isBlank

def digitsValue (ds : List UInt8) : Nat := ds.foldl (fun n b => 10 * n + (b.toNat - 48)) 0

/-- What follows a word, if the octets start with it. -/
def afterWord : List UInt8 → List UInt8 → Option (List UInt8)
  | [], input => some input
  | w :: ws, b :: input => if w = b then afterWord ws input else none
  | _ :: _, [] => none

/-! ## Texts -/

/-- A part of a text: an octet, or a 16-bit unit written with `\u`. -/
inductive Piece where
  | octet (b : UInt8)
  | unit (u : Nat)
deriving DecidableEq, Repr

def hexValue (b : UInt8) : Option Nat :=
  if 48 ≤ b && b ≤ 57 then some (b.toNat - 48)
  else if 97 ≤ b && b ≤ 102 then some (b.toNat - 87)
  else if 65 ≤ b && b ≤ 70 then some (b.toNat - 55)
  else none

/-- The unit that four hexadecimal digits write. -/
def hexUnit (a b c d : UInt8) : Option Nat := do
  return (((← hexValue a) * 16 + (← hexValue b)) * 16 + (← hexValue c)) * 16 + (← hexValue d)

/-- The octet that a backslash and a letter write. -/
def shortEscape (b : UInt8) : Option UInt8 :=
  if b = '"'.toUInt8 then some '"'.toUInt8
  else if b = '\\'.toUInt8 then some '\\'.toUInt8
  else if b = '/'.toUInt8 then some '/'.toUInt8
  else if b = 'b'.toUInt8 then some 8
  else if b = 'f'.toUInt8 then some 12
  else if b = 'n'.toUInt8 then some 10
  else if b = 'r'.toUInt8 then some 13
  else if b = 't'.toUInt8 then some 9
  else none

/-- The pieces of a text up to its closing quote, and what follows the quote. -/
def stringPieces : List UInt8 → Option (List Piece × List UInt8)
  | [] => none
  | b :: rest =>
    if b = '"'.toUInt8 then some ([], rest)
    else if b = '\\'.toUInt8 then
      match rest with
      | [] => none
      | e :: rest =>
        if e = 'u'.toUInt8 then
          match rest with
          | h₁ :: h₂ :: h₃ :: h₄ :: rest =>
            match hexUnit h₁ h₂ h₃ h₄ with
            | none => none
            | some u => (stringPieces rest).map fun r => (.unit u :: r.1, r.2)
          | _ => none
        else
          match shortEscape e with
          | none => none
          | some o => (stringPieces rest).map fun r => (.octet o :: r.1, r.2)
    else if b < 32 then none
    else (stringPieces rest).map fun r => (.octet b :: r.1, r.2)

/-- Whether a unit is the first half of a surrogate pair. -/
def isHighHalf (u : Nat) : Bool := 0xD800 ≤ u && u ≤ 0xDBFF

/-- Whether a unit is the second half of a surrogate pair. -/
def isLowHalf (u : Nat) : Bool := 0xDC00 ≤ u && u ≤ 0xDFFF

/-- The octets of a text, if every half of a surrogate pair has its other
half. -/
def assemble : List Piece → Option (List UInt8)
  | [] => some []
  | .octet b :: ps => (assemble ps).map (b :: ·)
  | .unit u :: ps =>
    if isHighHalf u then
      match ps with
      | .unit v :: ps =>
        if isLowHalf v then
          (assemble ps).map
            (String.utf8EncodeChar (Char.ofNat (0x10000 + (u - 0xD800) * 0x400 + (v - 0xDC00))) ++ ·)
        else none
      | _ => none
    else if isLowHalf u then none
    else (assemble ps).map (String.utf8EncodeChar (Char.ofNat u) ++ ·)

/-- The string that pieces make up, if any. -/
def pieceString (ps : List Piece) : Option String :=
  (assemble ps).bind fun octets => String.fromUTF8? ⟨octets.toArray⟩

/-- A text after its opening quote, and what follows it. -/
def readString (input : List UInt8) : Option (Option String × List UInt8) :=
  (stringPieces input).map fun r => (pieceString r.1, r.2)

/-! ## Numbers -/

/-- The digits of a whole number, of which only `0` starts with a zero. -/
def wholeDigits : List UInt8 → Option (List UInt8 × List UInt8)
  | [] => none
  | b :: rest =>
    if b = 48 then some ([b], rest)
    else if isDigit b then some (b :: rest.takeWhile isDigit, rest.dropWhile isDigit)
    else none

def someDigits (input : List UInt8) : Option (List UInt8 × List UInt8) :=
  match input.takeWhile isDigit with
  | [] => none
  | ds => some (ds, input.dropWhile isDigit)

/-- The digits after a decimal point; none where there is no point. -/
def fractionDigits : List UInt8 → Option (List UInt8 × List UInt8)
  | [] => some ([], [])
  | b :: rest => if b = '.'.toUInt8 then someDigits rest else some ([], b :: rest)

/-- An exponent, absent where there is no `e`. -/
def exponentPart : List UInt8 → Option (Option Int × List UInt8)
  | [] => some (none, [])
  | b :: rest =>
    if b = 'e'.toUInt8 || b = 'E'.toUInt8 then
      match rest with
      | [] => none
      | s :: rest' =>
        if s = '-'.toUInt8 then
          (someDigits rest').map fun r => (some (-(digitsValue r.1 : Int)), r.2)
        else if s = '+'.toUInt8 then
          (someDigits rest').map fun r => (some (digitsValue r.1 : Int), r.2)
        else (someDigits rest).map fun r => (some (digitsValue r.1 : Int), r.2)
    else some (none, b :: rest)

def readUnsigned (negative : Bool) (input : List UInt8) : Option (Number × List UInt8) := do
  let (whole, rest) ← wholeDigits input
  let (fraction, rest) ← fractionDigits rest
  let (exponent, rest) ← exponentPart rest
  if negative || !fraction.isEmpty || exponent.isSome then
    return (.decimal negative (digitsValue (whole ++ fraction))
      (exponent.getD 0 - fraction.length), rest)
  else return (.natural (digitsValue whole), rest)

def readNumber : List UInt8 → Option (Number × List UInt8)
  | [] => none
  | b :: rest =>
    if b = '-'.toUInt8 then readUnsigned true rest else readUnsigned false (b :: rest)

/-! ## Values -/

mutual

/-- A value with blanks before it, in at most `fuel` calls. -/
def readValue : (fuel : Nat) → List UInt8 → Option (Json × List UInt8)
  | 0, _ => none
  | fuel + 1, input =>
    match skipBlank input with
    | [] => none
    | b :: rest =>
      if b = '\x7b'.toUInt8 then
        match skipBlank rest with
        | [] => none
        | c :: rest' =>
          if c = '\x7d'.toUInt8 then some (.obj [], rest')
          else (readMembers fuel rest).map fun r => (.obj r.1, r.2)
      else if b = '['.toUInt8 then
        match skipBlank rest with
        | [] => none
        | c :: rest' =>
          if c = ']'.toUInt8 then some (.arr [], rest')
          else (readItems fuel rest).map fun r => (.arr r.1, r.2)
      else if b = '"'.toUInt8 then (readString rest).map fun r => (.str r.1, r.2)
      else if b = 'n'.toUInt8 then
        (afterWord ['u'.toUInt8, 'l'.toUInt8, 'l'.toUInt8] rest).map fun r => (.null, r)
      else if b = 't'.toUInt8 then
        (afterWord ['r'.toUInt8, 'u'.toUInt8, 'e'.toUInt8] rest).map fun r => (.bool true, r)
      else if b = 'f'.toUInt8 then
        (afterWord ['a'.toUInt8, 'l'.toUInt8, 's'.toUInt8, 'e'.toUInt8] rest).map
          fun r => (.bool false, r)
      else (readNumber (b :: rest)).map fun r => (.num r.1, r.2)

/-- The items of an array that has one or more, up to its closing bracket. -/
def readItems : (fuel : Nat) → List UInt8 → Option (List Json × List UInt8)
  | 0, _ => none
  | fuel + 1, input =>
    match readValue fuel input with
    | none => none
    | some (j, rest) =>
      match skipBlank rest with
      | [] => none
      | c :: rest =>
        if c = ','.toUInt8 then (readItems fuel rest).map fun r => (j :: r.1, r.2)
        else if c = ']'.toUInt8 then some ([j], rest)
        else none

/-- The members of an object that has one or more, up to its closing brace. -/
def readMembers : (fuel : Nat) → List UInt8 →
    Option (List (Option String × Json) × List UInt8)
  | 0, _ => none
  | fuel + 1, input =>
    match skipBlank input with
    | [] => none
    | q :: rest =>
      if q = '"'.toUInt8 then
        match readString rest with
        | none => none
        | some (name, rest) =>
          match skipBlank rest with
          | [] => none
          | c :: rest =>
            if c = ':'.toUInt8 then
              match readValue fuel rest with
              | none => none
              | some (j, rest) =>
                match skipBlank rest with
                | [] => none
                | c :: rest =>
                  if c = ','.toUInt8 then
                    (readMembers fuel rest).map fun r => ((name, j) :: r.1, r.2)
                  else if c = '\x7d'.toUInt8 then some ([(name, j)], rest)
                  else none
            else none
      else none

end

/-- The document that octets write, if they write one. -/
def read (input : List UInt8) : Option Json :=
  match readValue (2 * input.length + 2) input with
  | some (j, rest) => if (skipBlank rest).isEmpty then some j else none
  | none => none

end Southbound.Json
