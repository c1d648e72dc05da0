import Catalog.Flat.Bucket
import Catalog.Json.Codec

/-!
The JSON form of identifiers and buckets. A bucket is an object whose keys spell out identifiers;
where one comes again, its last record counts.
-/
namespace Catalog

namespace Json.Codec

variable {k : Kind} {α : Type}

def identifier : Codec (Id k) :=
  imap .uint32 Id.mk Id.val

/-- The identifier that a key spells out. -/
def decodeKey (key : Key) : Decoded (Id k) := do
  let n ← key.numeral.mapError .flaw
  let i ← decodeNat UInt32.size "u32" (.number (.ok n))
  if key.isNumeral then pure ⟨UInt32.ofNat i⟩ else .error (.flaw .malformed)

def decodeEntries (decode : Node → Decoded α) : Members → Decoded (List (Id k × α))
  | .close => .ok []
  | .flaw f | .stray f => .error (.flaw f)
  | .member key n rest => do
    let i ← decodeKey key
    let a ← decode n
    let es ← decodeEntries decode rest
    pure ((i, a) :: es)

/-- An object with identifiers as keys. -/
def bucket (c : Codec α) : Codec (Bucket k α) where
  encode b := .object (b.entries.map fun (i, a) => (toString i, c.encode a))
  decode
    | 0, .object _ => .error (.flaw .malformed)
    | room + 1, .object members => (decodeEntries (c.decode room) members).map Bucket.ofList
    | _, n => .error (n.refuse "a map")

end Json.Codec

end Catalog
