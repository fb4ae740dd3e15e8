import Southbound.Time.Moment
import Southbound.Toml.Text

/-!
# Plain values of settings documents

Integers fit in 64 bits with a sign and may be written in base sixteen, eight
or two; underscores may stand between digits.  A number with a fraction or an
exponent is refused where it is too large for double precision.  Dates and
times have to be possible ones.
-/

namespace Southbound.Toml

/-! ## Integers -/

/-- Digits that go on, with single underscores between them. -/
def moreDigits (digit : Char → Bool) : List Char → Option (List Char × List Char)
  | [] => some ([], [])
  | c :: cs =>
    if digit c then before c (moreDigits digit cs)
    else if c = '_' then
      match cs with
      | d :: cs => if digit d then before d (moreDigits digit cs) else none
      | [] => none
    else some ([], c :: cs)

/-- One digit or more, with single underscores between them. -/
def takeDigits (digit : Char → Bool) : List Char → Option (List Char × List Char)
  | [] => none
  | c :: cs => if digit c then before c (moreDigits digit cs) else none

/-- Decimal digits of which only `0` starts with a zero. -/
def takeWhole : List Char → Option (List Char × List Char)
  | [] => none
  | c :: cs =>
    if c = '0' then some (['0'], cs)
    else if c.isDigit then before c (moreDigits Char.isDigit cs)
    else none

/-- The value of a digit in any base up to sixteen. -/
def digitValue (c : Char) : Nat := (hexDigitValue c).getD 0

/-- The number that digits of a base write. -/
def digitsInBase (base : Nat) (ds : List Char) : Nat :=
  ds.foldl (fun n c => base * n + digitValue c) 0

/-- An integer that fits in 64 bits. -/
def integerOf (n : Int) : Option Scalar :=
  if -(Nat.pow 2 63 : Int) ≤ n ∧ n < Nat.pow 2 63 then some (.integer n) else none

/-- An integer in a base, after the letter that names the base. -/
def readInBase (base : Nat) (cs : List Char) : Option (Scalar × List Char) := do
  let digit (c : Char) : Bool := ((hexDigitValue c).any (· < base))
  let (ds, cs) ← takeDigits digit cs
  return (← integerOf (digitsInBase base ds), cs)

/-! ## Numbers with a fraction or an exponent -/

/-- Whether digits times a power of ten round to infinity in double
precision. -/
def isTooLarge (digits : Nat) (exponent : Int) : Bool :=
  let bound := Nat.pow 2 1024 - Nat.pow 2 970
  let size := (Nat.toDigits 10 digits).length + exponent
  if digits = 0 then false
  else if 400 < size then true
  else if size < 300 then false
  else if 0 ≤ exponent then bound ≤ digits * Nat.pow 10 exponent.toNat
  else bound * Nat.pow 10 exponent.natAbs ≤ digits

/-- The digits of a fraction; none where there is no point. -/
def takeFractionDigits : List Char → Option (List Char × List Char)
  | '.' :: cs => takeDigits Char.isDigit cs
  | cs => some ([], cs)

/-- The value of an exponent; zero where there is no `e`. -/
def takeExponent : List Char → Option (Int × List Char)
  | [] => some (0, [])
  | c :: cs =>
    if c = 'e' || c = 'E' then
      match cs with
      | '-' :: cs =>
        (takeDigits Char.isDigit cs).map fun r => (-(digitsInBase 10 r.1 : Int), r.2)
      | '+' :: cs => (takeDigits Char.isDigit cs).map fun r => ((digitsInBase 10 r.1 : Int), r.2)
      | cs => (takeDigits Char.isDigit cs).map fun r => ((digitsInBase 10 r.1 : Int), r.2)
    else some (0, c :: cs)

/-- Whether a fraction or an exponent comes next. -/
def goesOn : List Char → Bool
  | [] => false
  | c :: _ => c = '.' || c = 'e' || c = 'E'

def readDecimal (negative : Bool) (cs : List Char) : Option (Scalar × List Char) := do
  let (whole, cs) ← takeWhole cs
  if goesOn cs then
    let (fraction, cs) ← takeFractionDigits cs
    let (exponent, cs) ← takeExponent cs
    if !negative && isTooLarge (digitsInBase 10 (whole ++ fraction)) (exponent - fraction.length) then
      none
    else return (.float (String.ofList (whole ++ '.' :: fraction)), cs)
  else
    let n : Int := digitsInBase 10 whole
    return (← integerOf (if negative then -n else n), cs)

/-- What follows a word, if the characters start with it. -/
def afterChars : List Char → List Char → Option (List Char)
  | [], cs => some cs
  | w :: ws, c :: cs => if w = c then afterChars ws cs else none
  | _ :: _, [] => none

def readSigned (negative : Bool) (cs : List Char) : Option (Scalar × List Char) :=
  match afterChars ['i', 'n', 'f'] cs with
  | some cs => some (.float "inf", cs)
  | none =>
    match afterChars ['n', 'a', 'n'] cs with
    | some cs => some (.float "nan", cs)
    | none => readDecimal negative cs

def readNumber : List Char → Option (Scalar × List Char)
  | '0' :: 'x' :: cs => readInBase 16 cs
  | '0' :: 'o' :: cs => readInBase 8 cs
  | '0' :: 'b' :: cs => readInBase 2 cs
  | '-' :: cs => readSigned true cs
  | '+' :: cs => readSigned false cs
  | cs => readSigned false cs

/-! ## Dates and times -/

/-- A time of day with an optional fraction of a second. -/
def takeTime (cs : List Char) : Option (List Char) := do
  let (hour, cs) ← takeTwoDigits cs
  let (minute, cs) ← takeTwoDigits (← afterChars [':'] cs)
  let (second, cs) ← takeTwoDigits (← afterChars [':'] cs)
  if hour < 24 ∧ minute < 60 ∧ second ≤ 60 then
    match cs with
    | '.' :: d :: cs => if d.isDigit then return cs.dropWhile Char.isDigit else none
    | cs => return cs
  else none

def takeZone (cs : List Char) : Option (List Char) := do
  match cs with
  | [] => return []
  | c :: cs =>
    if c = 'Z' || c = 'z' then return cs
    else if c = '+' || c = '-' then
      let (hour, cs) ← takeTwoDigits cs
      let (minute, cs) ← takeTwoDigits (← afterChars [':'] cs)
      if hour < 24 ∧ minute < 60 then return cs else none
    else return c :: cs

/-- Whether a time of day comes next. -/
def startsTime (cs : List Char) : Bool :=
  match takeTwoDigits cs with
  | some (_, ':' :: _) => true
  | _ => false

/-- A date, and the time of day after it if there is one. -/
def takeDate (cs : List Char) : Option (List Char) := do
  let (high, cs) ← takeTwoDigits cs
  let (low, cs) ← takeTwoDigits cs
  let (month, cs) ← takeTwoDigits (← afterChars ['-'] cs)
  let (day, cs) ← takeTwoDigits (← afterChars ['-'] cs)
  let _ ← Date.of? (100 * high + low : Nat) month day
  match cs with
  | c :: rest =>
    if (c = 'T' || c = 't' || c = ' ') && startsTime rest then takeZone (← takeTime rest)
    else return c :: rest
  | [] => return []

/-- Whether a date comes next. -/
def startsDate (cs : List Char) : Bool :=
  match (takeTwoDigits cs).bind fun r => takeTwoDigits r.2 with
  | some (_, '-' :: _) => true
  | _ => false

/-- A date or time that was read from characters, with what is left of them. -/
def timeBefore (cs rest : List Char) : Scalar × List Char :=
  (.time (String.ofList (cs.take (cs.length - rest.length))), rest)

/-- A plain value other than a text, and what follows it. -/
def readScalar (cs : List Char) : Option (Scalar × List Char) :=
  if startsDate cs then (takeDate cs).map (timeBefore cs)
  else if startsTime cs then (takeTime cs).map (timeBefore cs)
  else
    match afterChars ['t', 'r', 'u', 'e'] cs with
    | some cs => some (.bool true, cs)
    | none =>
      match afterChars ['f', 'a', 'l', 's', 'e'] cs with
      | some cs => some (.bool false, cs)
      | none => readNumber cs

/-! ## Writing -/

/-- A plain value as it is written. -/
def Scalar.display : Scalar → String
  | .text s => writeText s
  | .integer n => toString n
  | .bool true => "true"
  | .bool false => "false"
  | .float literal => literal
  | .time literal => literal

end Southbound.Toml
