import Southbound.Toml.Basic

/-!
# Tables under construction

A settings document defines its tables bit by bit, and each table only once.
So a table that is being built remembers where it comes from: it was stated by
a header of its own, it is implied by a header of a table inside it, or it was
written as dotted keys.

* A header may state a table that is implied, and no other that is there.
* Dotted keys may add to a table that was written as dotted keys, and pass
  through one that is implied.
* A value, which includes arrays and tables in braces, is never added to.
-/

namespace Southbound.Toml

/-- Where a table comes from. -/
inductive Origin where
  | stated
  | implied
  | dotted
deriving DecidableEq, Repr

/-- What stands under a key while a document is read. -/
inductive Node where
  | value (v : Toml)
  | table (origin : Origin) (entries : List (String × Node))
  | tables (items : List (List (String × Node)))

/-- The entries of a table under construction. -/
abbrev Entries := List (String × Node)

mutual

def Node.finish : Node → Toml
  | .value v => v
  | .table _ entries => .table (finishEntries entries)
  | .tables items => .array (finishItems items)

def finishEntries : List (String × Node) → List (String × Toml)
  | [] => []
  | (k, n) :: es => (k, n.finish) :: finishEntries es

def finishItems : List (List (String × Node)) → List Toml
  | [] => []
  | es :: ts => .table (finishEntries es) :: finishItems ts

end

/-- Change what stands under a key, if anything does. -/
def alter (k : String) (f : Option Node → Option Node) : Entries → Option Entries
  | [] => (f none).map fun n => [(k, n)]
  | (k', n) :: es =>
    if k' = k then (f (some n)).map fun n => (k, n) :: es
    else (alter k f es).map ((k', n) :: ·)

def alterLast (f : Entries → Option Entries) : List Entries → Option (List Entries)
  | [] => none
  | [es] => (f es).map fun es => [es]
  | es :: ts => (alterLast f ts).map (es :: ·)

/-- Change the table at a path.  Tables that are not there are implied, and of
an array of tables the last is meant. -/
def alterAt (f : Entries → Option Entries) : List String → Entries → Option Entries
  | [], es => f es
  | k :: ks, es =>
    alter k (fun
      | none => (alterAt f ks []).map (.table .implied)
      | some (.table origin es) => (alterAt f ks es).map (.table origin)
      | some (.tables items) => (alterLast (alterAt f ks) items).map .tables
      | some (.value _) => none) es

/-- State a new table under a key. -/
def stateTable (k : String) : Entries → Option Entries :=
  alter k fun
    | none => some (.table .stated [])
    | some (.table .implied es) => some (.table .stated es)
    | some _ => none

/-- Add a new table to the array of tables under a key. -/
def addTable (k : String) : Entries → Option Entries :=
  alter k fun
    | none => some (.tables [[]])
    | some (.tables items) => some (.tables (items ++ [[]]))
    | some _ => none

/-- Put a value under a new key. -/
def putNew (k : String) (v : Toml) : Entries → Option Entries :=
  alter k fun
    | none => some (.value v)
    | some _ => none

/-- Put a value under a dotted key: the parts of the key that lead to it, and
its last part. -/
def putDotted (k : String) (v : Toml) : List String → Entries → Option Entries
  | [], es => putNew k v es
  | p :: ps, es =>
    alter p (fun
      | none => (putDotted k v ps []).map (.table .dotted)
      | some (.table .dotted es) => (putDotted k v ps es).map (.table .dotted)
      | some (.table .implied es) =>
        if ps.isEmpty then none else (putDotted k v ps es).map (.table .implied)
      | some (.tables items) =>
        if ps.isEmpty then none else (alterLast (putDotted k v ps) items).map .tables
      | some (.table .stated _) => none
      | some (.value _) => none) es

/-- Put a value under the parts of a key. -/
def put (path : List String) (v : Toml) (es : Entries) : Option Entries :=
  match path.getLast? with
  | some k => putDotted k v path.dropLast es
  | none => none

/-- The table that pairs of keys and values in braces make up. -/
def ofPairs (pairs : List (List String × Toml)) : Option Toml :=
  (pairs.foldlM (fun es p => put p.1 p.2 es) []).map fun es => .table (finishEntries es)

/-! ## Statements -/

/-- A line of a file: a key with its value, or a header. -/
inductive Statement where
  | pair (path : List String) (value : Toml)
  | header (path : List String)
  /-- The header of one of an array of tables. -/
  | arrayHeader (path : List String)

/-- What is built so far: the document, and the path of the table whose keys
are being read. -/
structure Draft where
  root : Entries := []
  current : List String := []

/-- What is built after one more statement. -/
def Draft.add (d : Draft) : Statement → Option Draft
  | .pair path value => do
    return { d with root := ← alterAt (put path value) d.current d.root }
  | .header path =>
    match path.getLast? with
    | some k => do return ⟨← alterAt (stateTable k) path.dropLast d.root, path⟩
    | none => none
  | .arrayHeader path =>
    match path.getLast? with
    | some k => do return ⟨← alterAt (addTable k) path.dropLast d.root, path⟩
    | none => none

def ofStatements (statements : List Statement) : Option Toml :=
  (statements.foldlM Draft.add {}).map fun d => .table (finishEntries d.root)

end Southbound.Toml
