/-!
# Settings documents

The values of a TOML document (version 1.0).  Numbers that are not integers,
dates and times are kept as they are written, since no setting of this library
is one.
-/

namespace Southbound

/-- A value that has no parts. -/
inductive Toml.Scalar where
  | text (s : String)
  | integer (n : Int)
  | bool (b : Bool)
  | float (literal : String)
  | time (literal : String)
deriving DecidableEq, Repr, Inhabited

/-- A value of a document.  The document itself is a table. -/
inductive Toml where
  | scalar (s : Toml.Scalar)
  | array (items : List Toml)
  | table (entries : List (String × Toml))
deriving Repr, Inhabited

namespace Toml

/-- The limit on how deeply arrays and tables stand inside each other, and on
the number of parts of a key. -/
def nestingLimit : Nat := 80

/-- The value of a key of a table. -/
def get? (t : Toml) (key : String) : Option Toml :=
  match t with
  | .table entries => entries.lookup key
  | _ => none

end Toml

end Southbound
