import Southbound.Json.Basic

/-!
# Writing documents

`Json.octets` writes a document without blanks.  In a text only the quote, the
backslash and the control characters below a space are escaped, the last with a
short escape where there is one; all other octets stand for themselves.  A text
that no string can hold is written as half of a surrogate pair.
-/

namespace Southbound.Json

/-! ## Digits -/

def decimalDigits (n : Nat) : List UInt8 :=
  if n < 10 then [(48 + n).toUInt8]
  else decimalDigits (n / 10) ++ [(48 + n % 10).toUInt8]

def hexDigit (n : Nat) : UInt8 := if n < 10 then (48 + n).toUInt8 else (87 + n).toUInt8

/-! ## Leaves -/

/-- An octet of a text as it is written between quotes. -/
def escapeOctet (b : UInt8) : List UInt8 :=
  if b = '"'.toUInt8 then ['\\'.toUInt8, '"'.toUInt8]
  else if b = '\\'.toUInt8 then ['\\'.toUInt8, '\\'.toUInt8]
  else if b = 8 then ['\\'.toUInt8, 'b'.toUInt8]
  else if b = 9 then ['\\'.toUInt8, 't'.toUInt8]
  else if b = 10 then ['\\'.toUInt8, 'n'.toUInt8]
  else if b = 12 then ['\\'.toUInt8, 'f'.toUInt8]
  else if b = 13 then ['\\'.toUInt8, 'r'.toUInt8]
  else if b < 32 then
    ['\\'.toUInt8, 'u'.toUInt8, 48, 48, hexDigit (b.toNat / 16), hexDigit (b.toNat % 16)]
  else [b]

def stringOctets : Option String → List UInt8
  | some s =>
    '"'.toUInt8 :: (s.toByteArray.data.toList.flatMap escapeOctet ++ ['"'.toUInt8])
  | none =>
    ['"'.toUInt8, '\\'.toUInt8, 'u'.toUInt8, 'd'.toUInt8, '8'.toUInt8, 48, 48, '"'.toUInt8]

/-- A number.  A decimal is written as an integer with an exponent. -/
def numberOctets : Number → List UInt8
  | .natural n => decimalDigits n
  | .decimal negative digits exponent =>
    (if negative then ['-'.toUInt8] else []) ++ decimalDigits digits ++ ['e'.toUInt8] ++
      (if exponent < 0 then ['-'.toUInt8] else []) ++ decimalDigits exponent.natAbs

/-! ## Documents -/

mutual

def octets : Json → List UInt8
  | .null => ['n'.toUInt8, 'u'.toUInt8, 'l'.toUInt8, 'l'.toUInt8]
  | .bool true => ['t'.toUInt8, 'r'.toUInt8, 'u'.toUInt8, 'e'.toUInt8]
  | .bool false => ['f'.toUInt8, 'a'.toUInt8, 'l'.toUInt8, 's'.toUInt8, 'e'.toUInt8]
  | .num n => numberOctets n
  | .str s => stringOctets s
  | .arr items => '['.toUInt8 :: itemsOctets items
  | .obj members => '\x7b'.toUInt8 :: membersOctets members

/-- The items of an array and its closing bracket. -/
def itemsOctets : List Json → List UInt8
  | [] => [']'.toUInt8]
  | [j] => octets j ++ [']'.toUInt8]
  | j :: js => octets j ++ ','.toUInt8 :: itemsOctets js

/-- The members of an object and its closing brace. -/
def membersOctets : List (Option String × Json) → List UInt8
  | [] => ['\x7d'.toUInt8]
  | [(name, j)] => stringOctets name ++ ':'.toUInt8 :: (octets j ++ ['\x7d'.toUInt8])
  | (name, j) :: ms =>
    stringOctets name ++ ':'.toUInt8 :: (octets j ++ ','.toUInt8 :: membersOctets ms)

end

def render (j : Json) : String :=
  (String.fromUTF8? ⟨j.octets.toArray⟩).getD ""

end Southbound.Json
