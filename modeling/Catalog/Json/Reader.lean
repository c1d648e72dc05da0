import Catalog.Json.Scanner

/-!
From text to nodes. Reading never fails: where the text stops being JSON the node says so, and the
rest of the text is replaced by the flaw that a reader meets who only looks for the end.
-/
namespace Catalog.Json

/-- A node and what follows it. -/
abbrev Reading (α : Type) := α × Rest

def readWord (word : List Char) (node : Node) (s : List Char) : Reading Node :=
  match scanWord word s with
  | .ok rest => (node, .ok rest)
  | .error f => (.word f, .error f)

/-- A number broken off is of no use to a decoder because the text ends, and to a lenient reader
because it is no number. -/
def readNumeral (s : List Char) : Reading Node :=
  match scanNumeral s with
  | .ok (n, rest) => (.number (.ok n), .ok rest)
  | .error f => (.number (.error f), .error .malformed)

def readString (s : List Char) : Reading Node :=
  let string := scanString 0 s
  (.string (string.value.map String.ofList), string.rest)

mutual

/-- Each step takes one unit of `fuel`. -/
def readNode : Nat → List Char → Reading Node
  | 0, _ => (.missing .malformed, .error .malformed)
  | fuel + 1, s =>
    match skipBlank s with
    | [] => (.missing .cutShort, .error .cutShort)
    | c :: s =>
      if c = '"' then readString s
      else if c = '[' then
        let (items, rest) := readItems fuel true s
        (.array items, rest)
      else if c = '\x7b' then
        let (members, rest) := readMembers fuel true s
        (.object members, rest)
      else if c = 'n' then readWord ['u', 'l', 'l'] .null s
      else if c = 't' then readWord ['r', 'u', 'e'] (.bool true) s
      else if c = 'f' then readWord ['a', 'l', 's', 'e'] (.bool false) s
      else if startsNumeral c then readNumeral (c :: s)
      else (.missing .malformed, .error .malformed)

/-- The items from here on; all but the first come after a comma. -/
def readItems : Nat → Bool → List Char → Reading Items
  | 0, _, _ => (.flaw .malformed, .error .malformed)
  | fuel + 1, first, s =>
    match skipBlank s with
    | [] => (.flaw .cutShort, .error .cutShort)
    | c :: s =>
      if c = ']' then (.close, .ok s)
      else if first then readItem fuel (c :: s)
      else if c = ',' then readItem fuel s
      else (.flaw .malformed, .error .malformed)

def readItem : Nat → List Char → Reading Items
  | 0, _ => (.flaw .malformed, .error .malformed)
  | fuel + 1, s =>
    match readNode fuel s with
    | (node, .error f) => (.item node (.flaw f), .error f)
    | (node, .ok s) =>
      let (items, rest) := readItems fuel false s
      (.item node items, rest)

/-- The members from here on; all but the first come after a comma. -/
def readMembers : Nat → Bool → List Char → Reading Members
  | 0, _, _ => (.flaw .malformed, .error .malformed)
  | fuel + 1, first, s =>
    match skipBlank s with
    | [] => (.flaw .cutShort, .error .cutShort)
    | c :: s =>
      if c = '\x7d' then (.close, .ok s)
      else if first then readMember fuel (c :: s)
      else if c = ',' then readMember fuel s
      else (.flaw .malformed, .error .malformed)

def readMember : Nat → List Char → Reading Members
  | 0, _ => (.flaw .malformed, .error .malformed)
  | fuel + 1, s =>
    match skipBlank s with
    | [] => (.stray .cutShort, .error .cutShort)
    | c :: s =>
      if c = '"' then
        match scanKey s with
        | (key, .error f) => (.member key (.missing f) (.flaw f), .error f)
        | (key, .ok s) =>
          match skipBlank s with
          | [] => (.member key (.missing .cutShort) (.flaw .cutShort), .error .cutShort)
          | c :: s =>
            if c = ':' then
              match readNode fuel s with
              | (node, .error f) => (.member key node (.flaw f), .error f)
              | (node, .ok s) =>
                let (members, rest) := readMembers fuel false s
                (.member key node members, rest)
            else (.member key (.missing .malformed) (.flaw .malformed), .error .malformed)
      else (.stray .malformed, .error .malformed)

end

/-- A whole text: its value, and what stands after it. -/
def readText (s : List Char) : Reading Node :=
  readNode (3 * s.length + 3) s

/-- After the value only blanks may follow. -/
def endOfText : Rest → Except Flaw Unit
  | .error f => .error f
  | .ok s => if (skipBlank s).isEmpty then .ok () else .error .malformed

end Catalog.Json
