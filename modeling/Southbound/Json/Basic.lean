/-!
# Documents

The tree of a JSON document (RFC 8259) as this library reads and writes it.

A number is kept as it is written and not as a machine number: an integer that
is written with digits only is a `natural`, and everything else is a `decimal`.
Most numbers of the library are integers, and a decimal is never one of them.

A text that no string can hold (half of a surrogate pair, or octets that are
not UTF-8) is kept as `none`.  It may stand where the document is not looked
at.
-/

namespace Southbound

/-- A number as it was written. -/
inductive Json.Number where
  | natural (n : Nat)
  /-- A number written with a sign, a fraction or an exponent: its digits and
  the power of ten they are multiplied with. -/
  | decimal (negative : Bool) (digits : Nat) (exponent : Int)
deriving DecidableEq, Repr, Inhabited

/-- A document.  A text that is not Unicode is absent. -/
inductive Json where
  | null
  | bool (b : Bool)
  | num (n : Json.Number)
  | str (s : Option String)
  | arr (items : List Json)
  | obj (members : List (Option String × Json))
deriving Repr, Inhabited

namespace Json

/-! ## Building documents -/

def nat (n : Nat) : Json := .num (.natural n)

def text (s : String) : Json := .str (some s)

/-- An object whose members have the given names. -/
def object (members : List (String × Json)) : Json :=
  .obj (members.map fun m => (some m.1, m.2))

/-! ## The range of numbers -/

/-- A number rounded to 53 bits, a half going to the even neighbour. -/
def roundTo53 (n : Nat) : Nat :=
  let spare := n.log2 + 1 - 53
  let unit := Nat.pow 2 spare
  let low := n / unit
  let rest := n % unit
  let up := 2 * rest > unit ∨ (2 * rest = unit ∧ low % 2 = 1)
  (if spare = 0 then n else if up then (low + 1) * unit else low * unit)

/-- The first digits of a number that fit in 64 bits, and how many were left
out. -/
def leadingDigits (n : Nat) : Nat × Nat :=
  if n < UInt64.size then (n, 0)
  else
    let r := leadingDigits (n / 10)
    (r.1, r.2 + 1)
termination_by n
decreasing_by
  have : 0 < UInt64.size := by decide
  omega

/-- Whether a number lies in the range of double precision.  It is computed as
its leading digits times a power of ten, and each of the factors is rounded
first. -/
def Number.inRange (digits : Nat) (exponent : Int) : Bool :=
  let lead := leadingDigits digits
  let power := exponent + lead.2
  lead.1 = 0 || power < 0 ||
    (power ≤ 308 &&
      roundTo53 lead.1 * roundTo53 (Nat.pow 10 power.toNat) < Nat.pow 2 1024 - Nat.pow 2 970)

/-- Whether a number of a document lies in the range of double precision. -/
def Number.representable : Number → Bool
  | .natural n => Number.inRange n 0
  | .decimal _ digits exponent => Number.inRange digits exponent

/-! ## What is held back -/

/-- How many arrays and objects may stand inside each other where a part of a
document is held back. -/
def maxNesting : Nat := 127

mutual

/-- Whether a value that stands inside `depth` arrays and objects can be held
back until its meaning is known: every text in it is a string, every number is
in range, and it is not nested too deeply. -/
def holdable (depth : Nat) : Json → Bool
  | .null => true
  | .bool _ => true
  | .num n => n.representable
  | .str s => s.isSome
  | .arr items => depth < maxNesting && holdableItems (depth + 1) items
  | .obj members => depth < maxNesting && holdableMembers (depth + 1) members

/-- `holdable` of every item of an array. -/
def holdableItems (depth : Nat) : List Json → Bool
  | [] => true
  | j :: js => holdable depth j && holdableItems depth js

/-- `holdable` of every member of an object, and of its name. -/
def holdableMembers (depth : Nat) : List (Option String × Json) → Bool
  | [] => true
  | (name, j) :: ms => name.isSome && holdable depth j && holdableMembers depth ms

end

end Json

end Southbound
