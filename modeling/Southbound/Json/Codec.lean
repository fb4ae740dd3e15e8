import Southbound.Json.Basic

/-!
# Values in documents

How a value of the library stands in a document.  `Encode` writes it and
`Decode` reads it back.

A record is an object, or an array of its fields in their order.  An object may
name its fields in any order, once each, and names that are not fields are
passed over.  A choice between variants stands in a document in one of three
ways.

* A choice of names only is a text, or an object with that name and a null.
* A choice that is *tagged inside* is an object in which one member, the tag,
  names the variant and the others are its fields, or an array that starts
  with the tag.
* A choice that is *tagged beside* is an object with a tag and a content, or
  an array of both.  In the object the tag is a choice of names, and in the
  array a tag as of a choice that is tagged inside.

What stands before the tag that gives it its meaning is held back, and what is
held back has to be `Json.holdable` as a whole.  The same goes for every value
that is tagged inside, wherever its tag stands.  A held value keeps the kind of
its tag: the tag that starts an array, or a tag inside, may then be the number
of a variant.
-/

namespace Southbound.Json

/-- Where a value stands in a document. -/
structure Place where
  /-- How many arrays and objects are around it. -/
  depth : Nat := 0
  /-- Whether it was held back before its meaning was known. -/
  held : Bool := false
deriving DecidableEq, Repr

/-- The place of the items of a value. -/
def Place.inner (p : Place) : Place := { p with depth := p.depth + 1 }

/-- A way to read a value that stands at some place. -/
abbrev Decoder (α : Type) := Place → Json → Option α

/-- Values that can be written as documents. -/
class Encode (α : Type) where
  encode : α → Json

/-- Values that can be read from documents. -/
class Decode (α : Type) where
  /-- The value of a document, if it is one. -/
  decode : Decoder α

export Encode (encode)
export Decode (decode)

/-! ## Plain values -/

def decodeBelow (bound : Nat) : Json → Option Nat
  | .num (.natural n) => if n < bound then some n else none
  | _ => none

instance : Encode Bool := ⟨.bool⟩
instance : Encode String := ⟨.text⟩
instance : Encode UInt8 := ⟨fun n => .nat n.toNat⟩
instance : Encode UInt16 := ⟨fun n => .nat n.toNat⟩
instance : Encode UInt32 := ⟨fun n => .nat n.toNat⟩
instance : Encode UInt64 := ⟨fun n => .nat n.toNat⟩
instance {α : Type} [Encode α] : Encode (List α) := ⟨fun xs => .arr (xs.map encode)⟩

instance : Decode Bool where
  decode
    | _, .bool b => some b
    | _, _ => none

instance : Decode String where
  decode
    | _, .str s => s
    | _, _ => none

instance : Decode UInt8 := ⟨fun _ j => (decodeBelow UInt8.size j).map UInt8.ofNat⟩
instance : Decode UInt16 := ⟨fun _ j => (decodeBelow UInt16.size j).map UInt16.ofNat⟩
instance : Decode UInt32 := ⟨fun _ j => (decodeBelow UInt32.size j).map UInt32.ofNat⟩
instance : Decode UInt64 := ⟨fun _ j => (decodeBelow UInt64.size j).map UInt64.ofNat⟩

instance {α : Type} [Decode α] : Decode (List α) where
  decode
    | p, .arr items => items.mapM (decode p.inner)
    | _, _ => none

/-- An optional value, of which a null is the absence. -/
instance {α : Type} [Decode α] : Decode (Option α) where
  decode
    | _, .null => some none
    | p, j => (decode p j).map some

/-! ## Records -/

/-- The members of an object that are among the given names, if none of them
is there twice and every name is a text. -/
def knownMembers (names : List String) :
    List (Option String × Json) → Option (List (String × Json))
  | [] => some []
  | (none, _) :: _ => none
  | (some name, j) :: ms =>
    match knownMembers names ms with
    | none => none
    | some known =>
      if names.contains name then
        if (known.lookup name).isSome then none else some ((name, j) :: known)
      else some known

/-- The fields of a record by name. -/
def recordFields (names : List String) : Json → Option (List (String × Json))
  | .obj members => knownMembers names members
  | .arr items => if items.length ≤ names.length then some (names.zip items) else none
  | _ => none

/-- A field that has to be there. -/
def requiredField {α : Type} [Decode α] (p : Place) (fields : List (String × Json))
    (name : String) : Option α :=
  (fields.lookup name).bind (decode p.inner)

/-- A field that takes a value of its own when it is not there. -/
def fieldOr {α : Type} [Decode α] (p : Place) (fields : List (String × Json))
    (name : String) (absent : α) : Option α :=
  match fields.lookup name with
  | none => some absent
  | some j => decode p.inner j

def member {α : Type} [Encode α] (name : String) (x : α) : List (String × Json) :=
  [(name, encode x)]

/-- A member that is written when it is there. -/
def optionalMember {α : Type} [Encode α] (name : String) :
    Option α → List (String × Json)
  | none => []
  | some x => [(name, encode x)]

/-! ## Choices -/

/-- The name in a choice of names. -/
def choiceName (p : Place) : Json → Option String
  | .str s => s
  | .obj [(some name, .null)] => some name
  | .obj [(some name, .obj [])] => if p.held then some name else none
  | _ => none

def decodeNames {α : Type} (choices : List (String × α)) : Decoder α := fun p j =>
  (choiceName p j).bind fun name => choices.lookup name

/-- The tag of a value that is tagged inside, and the value without it. -/
def splitTag (tag : String) : Json → Option (Json × Json)
  | .obj members =>
    match members.filter (·.1 == some tag) with
    | [(_, t)] => some (t, .obj (members.filter (·.1 != some tag)))
    | _ => none
  | .arr (t :: items) => some (t, .arr items)
  | _ => none

/-- The variant that a tag names, other than a tag beside its content in an
object. -/
def variantOfTag {β : Type} (p : Place) (variants : List (String × β)) : Json → Option β
  | .str (some name) => variants.lookup name
  | .num (.natural n) => if p.held then variants[n]?.map Prod.snd else none
  | _ => none

def decodeTagged {α : Type} (tag : String) (variants : List (String × Decoder α)) :
    Decoder α := fun p j =>
  if p.held || j.holdable p.depth then
    match splitTag tag j with
    | none => none
    | some (t, content) =>
      match variantOfTag p variants t with
      | none => none
      | some variant => variant { p with held := true } content
  else none

/-- A variant without fields passes over the members of an object, and allows
nothing in an array. -/
def emptyVariant {α : Type} (x : α) : Decoder α := fun _ j =>
  match j with
  | .obj _ => some x
  | .arr [] => some x
  | _ => none

/-! ## Variants with fields -/

def fieldVariant {α β : Type} [Decode β] (name : String) (f : β → α) : Decoder α := fun p j => do
  let fields ← recordFields [name] j
  return f (← requiredField p fields name)

def twoFieldVariant {α β γ : Type} [Decode β] [Decode γ] (first second : String)
    (f : β → γ → α) : Decoder α := fun p j => do
  let fields ← recordFields [first, second] j
  return f (← requiredField p fields first) (← requiredField p fields second)

def threeFieldVariant {α β γ δ : Type} [Decode β] [Decode γ] [Decode δ]
    (first second third : String) (f : β → γ → δ → α) : Decoder α := fun p j => do
  let fields ← recordFields [first, second, third] j
  return f (← requiredField p fields first) (← requiredField p fields second)
    (← requiredField p fields third)

/-- A choice that is tagged beside.  The content is absent where the object has
none; in an array both have to be there. -/
def decodeBeside {α : Type} (tag content : String)
    (variants : List (String × (Place → Option Json → Option α))) : Decoder α := fun p j =>
  match j with
  | .arr [t, c] =>
    match variantOfTag p variants t with
    | none => none
    | some variant => variant p.inner (some c)
  | .obj members =>
    match knownMembers [tag, content] members with
    | none => none
    | some known =>
      match (known.lookup tag).bind fun t => (choiceName p.inner t).bind fun name =>
          variants.lookup name with
      | none => none
      | some variant =>
        match known with
        | (name, c) :: _ =>
          if name = content then
            if p.held || c.holdable (p.depth + 1) then
              variant { p.inner with held := true } (some c)
            else none
          else variant p.inner (known.lookup content)
        | [] => none
  | _ => none

/-- A variant whose content is a value. -/
def contentVariant {α β : Type} [Decode β] (f : β → α) : Place → Option Json → Option α
  | p, some j => (decode p j).map f
  | _, none => none

/-- A variant without content, which a null may stand for. -/
def noContentVariant {α : Type} (x : α) : Place → Option Json → Option α
  | _, none => some x
  | _, some .null => some x
  | _, some _ => none

/-- The document of a choice that is tagged beside. -/
def beside (tag content name : String) (c : Option Json) : Json :=
  .object ((tag, .text name) :: (c.toList.map fun j => (content, j)))

end Southbound.Json
