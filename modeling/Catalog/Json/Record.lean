import Catalog.Json.Codec

/-!
Codecs of records, put together field by field. A record is written as an object and read from an
object, in which fields may stand in any order, or from an array of its fields in theirs. Of all
problems of an object the one that comes first in the text is reported; a missing field is a problem
at its end.
-/
namespace Catalog.Json

/-- A result, or a fault and its place among the members of an object. -/
abbrev Placed := Except (Nat × Fault)

namespace Placed

variable {α β : Type}

/-- Of two faults the one at the lower place counts, and the left one of two at the same place. -/
def ap : Placed (α → β) → Placed α → Placed β
  | .ok f, .ok a => .ok (f a)
  | .ok _, .error e => .error e
  | .error e, .ok _ => .error e
  | .error e, .error e' => .error (if e'.1 < e.1 then e' else e)

end Placed

namespace Members

def size : Members → Nat
  | .member _ _ rest => rest.size + 1
  | _ => 0

/-- The first member with some key, and its place. -/
def find? (name : String) (place : Nat) : Members → Option (Nat × Node)
  | .member key n rest =>
    match key.text with
    | .ok k => if k = name then some (place, n) else rest.find? name (place + 1)
    | .error _ => rest.find? name (place + 1)
  | _ => none

/-- The first problem that no field accounts for: a key that is no string, a known key that comes
again, or the flaw that ends the text. The values of unknown keys are passed over. -/
def problem? (known : List String) (seen : List String) (place : Nat) :
    Members → Option (Nat × Fault)
  | .close => none
  | .flaw f | .stray f => some (place, .flaw f)
  | .member key _ rest =>
    match key.text with
    | .error f => some (place, .flaw f)
    | .ok k =>
      if k ∈ seen then some (place, .mismatch (.duplicateField k))
      else rest.problem? known (if k ∈ known then k :: seen else seen) (place + 1)

end Members

/-- How a part of type `α` of a record of type `σ` is written and read. -/
structure Record (σ α : Type) where
  names : List String
  encode : σ → List (String × Json)
  /-- Reads the part from the members of an object. -/
  ofMembers : Nat → Members → Placed α
  /-- Reads the part from the items of an array, the first of which has the index given. -/
  ofItems : String → Nat → Nat → Items → Decoded (α × Items)

namespace Record

variable {σ α β : Type}

/-- One field. It may have a value for objects without it and one for arrays that end before it;
some of its values may be left out of objects. -/
def field (name : String) (get : σ → α) (c : Codec α) (missing short : Option α)
    (isOmitted : α → Bool) : Record σ α where
  names := [name]
  encode s := if isOmitted (get s) then [] else [(name, c.encode (get s))]
  ofMembers room ms :=
    match ms.find? name 0 with
    | some (place, n) => (c.decode room n).mapError fun f => (place, f)
    | none =>
      match missing with
      | some a => .ok a
      | none => .error (ms.size + 1, .mismatch (.missingField name))
  ofItems expected room index
    | .item n rest => (c.decode room n).map fun a => (a, rest)
    | .flaw f => .error (.flaw f)
    | .close =>
      match short with
      | some a => .ok (a, .close)
      | none => .error (.mismatch (.invalidLength index expected))

/-- A field that must be there. -/
def required (name : String) (get : σ → α) (c : Codec α) : Record σ α :=
  field name get c none none fun _ => false

/-- A field that stands for some value where it is absent. -/
def defaulted (name : String) (get : σ → α) (c : Codec α) (value : α) : Record σ α :=
  field name get c (some value) (some value) fun _ => false

/-- A field that is left out where it has no value. -/
def optional (name : String) (get : σ → Option α) (c : Codec α) : Record σ (Option α) :=
  field name get c.nullable (some none) (some none) Option.isNone

/-- A field that is written as null where it has no value. Arrays must have it. -/
def nullable (name : String) (get : σ → Option α) (c : Codec α) : Record σ (Option α) :=
  field name get c.nullable (some none) none fun _ => false

instance : Functor (Record σ) where
  map f r :=
    { names := r.names
      encode := r.encode
      ofMembers := fun room ms => (r.ofMembers room ms).map f
      ofItems := fun expected room index items =>
        (r.ofItems expected room index items).map fun (a, rest) => (f a, rest) }

instance : Seq (Record σ) where
  seq f r :=
    { names := f.names ++ (r ()).names
      encode := fun s => f.encode s ++ (r ()).encode s
      ofMembers := fun room ms => (f.ofMembers room ms).ap ((r ()).ofMembers room ms)
      ofItems := fun expected room index items => do
        let (g, items) ← f.ofItems expected room index items
        let (a, items) ← (r ()).ofItems expected room (index + f.names.length) items
        pure (g a, items) }

/-- The same fields as part of a larger record. -/
def within {τ : Type} (part : τ → σ) (r : Record σ α) : Record τ α where
  names := r.names
  encode t := r.encode (part t)
  ofMembers := r.ofMembers
  ofItems := r.ofItems

/-- Reads a record from the members of an object. -/
def decodeMembers (r : Record α α) (room : Nat) (ms : Members) : Decoded α :=
  match ms.problem? r.names [] 0, r.ofMembers room ms with
  | none, .ok a => .ok a
  | none, .error (_, f) => .error f
  | some (_, f), .ok _ => .error f
  | some (i, f), .error (j, g) => .error (if j < i then g else f)

/-- Reads a record from the items of an array, of which none may be left over. -/
def decodeItems (title : String) (r : Record α α) (room : Nat) (items : Items) : Decoded α := do
  let expected := title ++ " with " ++ toString r.names.length ++ " elements"
  match ← r.ofItems expected room 0 items with
  | (a, .close) => pure a
  | (_, .flaw f) => .error (.flaw f)
  | (_, .item ..) => .error (.flaw .malformed)

/-- The codec of a record that diagnostics call by a title. -/
def codec (title : String) (r : Record α α) : Codec α where
  encode a := .object (r.encode a)
  decode
    | 0, .array _ | 0, .object _ => .error (.flaw .malformed)
    | room + 1, .object ms => r.decodeMembers room ms
    | room + 1, .array items => r.decodeItems title room items
    | _, n => .error (n.refuse title)

end Record

end Catalog.Json
