import Catalog.Json.Fault
import Catalog.Json.Reader

/-!
Codecs: a printer to JSON values beside a decoder of nodes. A decoder is told how many levels of
nesting are left to it; at most 127 arrays and objects may be nested in one another.
-/
namespace Catalog.Json

/-- How deeply arrays and objects may be nested in a text that is decoded. -/
def nestingLimit : Nat := 127

/-- The fault of a node that has not the wanted type. What cannot be read has no type: there the
flaw of the text is the fault. -/
def Node.refuse (expected : String) : Node → Fault
  | .missing f | .word f => .flaw f
  | .null => .mismatch (.invalidType .null expected)
  | .bool b => .mismatch (.invalidType (.bool b) expected)
  | .number (.error f) => .flaw f
  | .number (.ok n) =>
    match n.value? with
    | none => .flaw .malformed
    | some v => .mismatch (.invalidType (.number v) expected)
  | .string (.error f) => .flaw f
  | .string (.ok s) => .mismatch (.invalidType (.string s) expected)
  | .array _ => .mismatch (.invalidType .sequence expected)
  | .object _ => .mismatch (.invalidType .map expected)

structure Codec (α : Type) where
  encode : α → Json
  decode : Nat → Node → Decoded α

namespace Codec

variable {α β : Type}

/-- A codec for a type that is another one in disguise. -/
def imap (c : Codec α) (wrap : α → β) (unwrap : β → α) : Codec β where
  encode b := c.encode (unwrap b)
  decode room n := (c.decode room n).map wrap

def string : Codec String where
  encode := .string
  decode
    | _, .string (.ok s) => .ok s
    | _, n => .error (n.refuse "a string")

def bool : Codec Bool where
  encode := .bool
  decode
    | _, .bool b => .ok b
    | _, n => .error (n.refuse "a boolean")

/-- A natural number below a bound. -/
def decodeNat (bound : Nat) (expected : String) : Node → Decoded Nat
  | .number (.ok n) =>
    match n.value? with
    | some (.int i) =>
      if 0 ≤ i ∧ i.toNat < bound then .ok i.toNat
      else .error (.mismatch (.outOfRange i expected))
    | _ => .error ((Node.number (.ok n)).refuse expected)
  | n => .error (n.refuse expected)

def uint32 : Codec UInt32 where
  encode n := .ofNat n.toNat
  decode _ n := (decodeNat UInt32.size "u32" n).map UInt32.ofNat

def uint64 : Codec UInt64 where
  encode n := .ofNat n.toNat
  decode _ n := (decodeNat UInt64.size "usize" n).map UInt64.ofNat

/-- An absent value is written as null. -/
def nullable (c : Codec α) : Codec (Option α) where
  encode
    | none => .null
    | some a => c.encode a
  decode
    | _, .null => .ok none
    | room, n => (c.decode room n).map some

def decodeItems (decode : Node → Decoded α) : Items → Decoded (List α)
  | .close => .ok []
  | .flaw f => .error (.flaw f)
  | .item n rest => do
    let a ← decode n
    let as ← decodeItems decode rest
    pure (a :: as)

def list (c : Codec α) : Codec (List α) where
  encode as := .array (as.map c.encode)
  decode
    | 0, .array _ => .error (.flaw .malformed)
    | room + 1, .array items => decodeItems (c.decode room) items
    | _, n => .error (n.refuse "a sequence")

/-- The choice that a name stands for. -/
def choose (choices : List (String × α)) (name : String) : Decoded α :=
  match choices.lookup name with
  | some a => .ok a
  | none => .error (.mismatch (.unknownVariant name (choices.map (·.1))))

/-- Nothing may follow the one member of a choice. -/
def endOfChoice : Members → Decoded Unit
  | .close => .ok ()
  | .flaw f => .error (.flaw f)
  | .stray _ | .member .. => .error (.flaw .malformed)

/-- One of some named values: its name, or an object with the name as only key and null as value. -/
def choice (choices : List (String × α)) (name : α → String) : Codec α where
  encode a := .string (name a)
  decode
    | _, .string (.ok s) => choose choices s
    | _, .string (.error f) => .error (.flaw f)
    | _, .missing f => .error (.flaw f)
    | _ + 1, .object (.flaw f) | _ + 1, .object (.stray f) => .error (.flaw f)
    | _ + 1, .object (.member key n rest) => do
      let a ← choose choices (← key.text.mapError .flaw)
      match n with
      | .null => endOfChoice rest
      | n => .error (n.refuse "unit")
      pure a
    | _, _ => .error (.flaw .malformed)

mutual

def decodeAny : Nat → Node → Except Flaw Json
  | _, .missing f | _, .word f => .error f
  | _, .null => .ok .null
  | _, .bool b => .ok (.bool b)
  | _, .number (.error f) => .error f
  | _, .number (.ok n) =>
    match n.value? with
    | some v => .ok (.number v)
    | none => .error .malformed
  | _, .string t => t.map .string
  | 0, .array _ | 0, .object _ => .error .malformed
  | room + 1, .array items => (decodeAnyItems room items).map .array
  | room + 1, .object members => (decodeAnyMembers room [] members).map .object

def decodeAnyItems (room : Nat) : Items → Except Flaw (List Json)
  | .close => .ok []
  | .flaw f => .error f
  | .item n rest => do
    let j ← decodeAny room n
    let js ← decodeAnyItems room rest
    pure (j :: js)

/-- Members come out sorted by key; of members with one key the last one counts. -/
def decodeAnyMembers (room : Nat) (done : List (String × Json)) :
    Members → Except Flaw (List (String × Json))
  | .close => .ok done
  | .flaw f | .stray f => .error f
  | .member key n rest => do
    let k ← key.text
    let j ← decodeAny room n
    decodeAnyMembers room (insertMember k j done) rest

end

/-- Any JSON value. -/
def any : Codec Json where
  encode := id
  decode room n := (decodeAny room n).mapError .flaw

/-- Decodes a whole text. -/
def ofText (c : Codec α) (s : String) : Decoded α := do
  let (node, rest) := readText s.toList
  let a ← c.decode nestingLimit node
  (endOfText rest).mapError .flaw
  pure a

def text (c : Codec α) (l : Layout) (a : α) : String :=
  (c.encode a).text l

end Codec

end Catalog.Json
