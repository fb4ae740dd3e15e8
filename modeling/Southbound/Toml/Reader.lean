import Southbound.Toml.Scalar
import Southbound.Toml.Tables

/-!
# Reading settings documents

`Toml.read` reads a whole document.  Every statement ends with its line.  Blank
lines and comments may stand between statements and, inside brackets, between
the items of an array.

Values nest, so their reader takes a bound on the number of its calls, and the
number of characters is enough of them.
-/

namespace Southbound.Toml

/-! ## Gaps, comments and ends of lines -/

def skipGaps (cs : List Char) : List Char := cs.dropWhile isGap

/-- What follows the end of a line, which may have a comment. -/
def endOfLine (cs : List Char) : Option (List Char) :=
  let rest :=
    match skipGaps cs with
    | '#' :: cs => cs.dropWhile isPlain
    | cs => cs
  match rest with
  | [] => some []
  | '\n' :: cs => some cs
  | '\x0d' :: '\n' :: cs => some cs
  | _ => none

/-- The characters after gaps, ends of lines and comments. -/
def skipLines (inComment : Bool) : List Char → List Char
  | [] => []
  | c :: cs =>
    if c = '\n' then skipLines false cs
    else if c = '\x0d' then
      match cs with
      | '\n' :: cs => skipLines false cs
      | cs => c :: cs
    else if inComment then (if isPlain c then skipLines true cs else c :: cs)
    else if isGap c then skipLines false cs
    else if c = '#' then skipLines true cs
    else c :: cs

/-! ## Keys -/

/-- A character of a key without quotes. -/
def isKeyChar (c : Char) : Bool := c.isAlphanum || c = '_' || c = '-'

/-- A part of a key, and what follows it. -/
def readKeyPart : List Char → Option (String × List Char)
  | [] => none
  | c :: cs =>
    if c = '"' then (readBasic cs).map fun r => (String.ofList r.1, r.2)
    else if c = apostrophe then (readLiteral cs).map fun r => (String.ofList r.1, r.2)
    else
      match (c :: cs).takeWhile isKeyChar with
      | [] => none
      | ks => some (String.ofList ks, (c :: cs).dropWhile isKeyChar)

/-- The parts of a key with points between them, at most so many, and what
follows them and any gaps. -/
def readKey : (parts : Nat) → List Char → Option (List String × List Char)
  | 0, _ => none
  | parts + 1, cs =>
    match readKeyPart (skipGaps cs) with
    | none => none
    | some (k, cs) =>
      match skipGaps cs with
      | '.' :: cs => (readKey parts cs).map fun r => (k :: r.1, r.2)
      | cs => some ([k], cs)

/-- A key and the sign between it and its value. -/
def readKeyOfPair (cs : List Char) : Option (List String × List Char) :=
  match readKey (nestingLimit - 1) cs with
  | some (path, '=' :: cs) => some (path, skipGaps cs)
  | _ => none

/-! ## Values -/

mutual

/-- A value inside `depth` arrays and tables in braces, in at most `fuel`
calls. -/
def readValue : (fuel depth : Nat) → List Char → Option (Toml × List Char)
  | 0, _, _ => none
  | fuel + 1, depth, cs =>
    match cs with
    | [] => none
    | c :: rest =>
      if c = '"' || c = apostrophe then
        (readText cs).map fun r => (.scalar (.text (String.ofList r.1)), r.2)
      else if c = '[' then
        if depth + 1 < nestingLimit then
          (readItems fuel (depth + 1) (skipLines false rest)).map fun r => (.array r.1, r.2)
        else none
      else if c = '\x7b' then
        if depth + 1 < nestingLimit then
          match skipGaps rest with
          | '\x7d' :: rest => some (.table [], rest)
          | rest =>
            match readPairs fuel (depth + 1) rest with
            | none => none
            | some (pairs, rest) => (ofPairs pairs).map fun t => (t, rest)
        else none
      else (readScalar cs).map fun r => (.scalar r.1, r.2)

/-- The items of an array up to its closing bracket.  A comma may follow the
last. -/
def readItems : (fuel depth : Nat) → List Char → Option (List Toml × List Char)
  | 0, _, _ => none
  | fuel + 1, depth, cs =>
    match cs with
    | ']' :: rest => some ([], rest)
    | cs =>
      match readValue fuel depth cs with
      | none => none
      | some (v, rest) =>
        match skipLines false rest with
        | ',' :: rest =>
          (readItems fuel depth (skipLines false rest)).map fun r => (v :: r.1, r.2)
        | ']' :: rest => some ([v], rest)
        | _ => none

/-- The pairs of a table in braces that has one or more, up to its closing
brace. -/
def readPairs : (fuel depth : Nat) → List Char →
    Option (List (List String × Toml) × List Char)
  | 0, _, _ => none
  | fuel + 1, depth, cs =>
    match readKeyOfPair cs with
    | none => none
    | some (path, rest) =>
      match readValue fuel depth rest with
      | none => none
      | some (v, rest) =>
        match skipGaps rest with
        | ',' :: rest => (readPairs fuel depth rest).map fun r => ((path, v) :: r.1, r.2)
        | '\x7d' :: rest => some ([(path, v)], rest)
        | _ => none

end

/-! ## Statements -/

/-- A statement at the start of its line, and what follows its line. -/
def readStatement (cs : List Char) : Option (Statement × List Char) :=
  match cs with
  | '[' :: '[' :: cs =>
    match readKey (nestingLimit - 1) cs with
    | some (path, ']' :: ']' :: cs) => (endOfLine cs).map fun cs => (.arrayHeader path, cs)
    | _ => none
  | '[' :: cs =>
    match readKey (nestingLimit - 1) cs with
    | some (path, ']' :: cs) => (endOfLine cs).map fun cs => (.header path, cs)
    | _ => none
  | cs =>
    match readKeyOfPair cs with
    | none => none
    | some (path, cs) =>
      match readValue (cs.length + 1) 0 cs with
      | none => none
      | some (v, cs) => (endOfLine cs).map fun cs => (.pair path v, cs)

/-- The statements of a document, in at most `fuel` lines. -/
def readStatements : (fuel : Nat) → List Char → Option (List Statement)
  | 0, _ => none
  | fuel + 1, cs =>
    match skipGaps cs with
    | [] => some []
    | c :: rest =>
      if c = '#' || c = '\n' || c = '\x0d' then
        match endOfLine (c :: rest) with
        | none => none
        | some cs => readStatements fuel cs
      else
        match readStatement (c :: rest) with
        | none => none
        | some (s, cs) => (readStatements fuel cs).map (s :: ·)

/-- The document that a text writes.  A byte order mark at its start is passed
over. -/
def read (s : String) : Option Toml :=
  let cs :=
    match s.toList with
    | '\uFEFF' :: cs => cs
    | cs => cs
  (readStatements (cs.length + 1) cs).bind ofStatements

/-! ## Writing -/

/-- The lines of a table of plain values under its header. -/
def displaySection (name : String) (entries : List (String × Scalar)) : String :=
  "[" ++ name ++ "]\n" ++ String.join (entries.map fun e => e.1 ++ " = " ++ e.2.display ++ "\n")

/-- A document of tables of plain values, with an empty line between the
tables. -/
def display (sections : List (String × List (String × Scalar))) : String :=
  "\n".intercalate (sections.map fun s => displaySection s.1 s.2)

end Southbound.Toml
