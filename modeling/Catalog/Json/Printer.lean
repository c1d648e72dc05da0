import Catalog.Decimal.Shortest
import Catalog.Json.Value

/-!
JSON text, either on one line or indented by two spaces a level. All characters but quotes,
backslashes and control characters stand for themselves.
-/
namespace Catalog

namespace Number

/-- A decimal with its digits in front of a power of ten. The scientific exponent decides the
form: from -5 to 15 the digits are written in place, with at least one on either side of the point;
outside an exponent follows, with its sign. -/
def decimalText (digits : Nat) (place : Int) : List Char :=
  let ds := Nat.toDigits 10 digits
  let sci : Int := ds.length - 1 + place
  if sci < -5 ∨ 15 < sci then
    let head := match ds with
      | d :: e :: rest => d :: '.' :: e :: rest
      | ds => ds
    head ++ 'e' :: (if sci < 0 then '-' else '+') :: Nat.toDigits 10 sci.natAbs
  else if sci < 0 then
    '0' :: '.' :: (List.replicate (-sci - 1).toNat '0' ++ ds)
  else if 0 ≤ place then
    ds ++ List.replicate place.toNat '0' ++ ['.', '0']
  else
    ds.take (sci + 1).toNat ++ '.' :: ds.drop (sci + 1).toNat

def doubleText (d : Decimal.Double) : List Char :=
  let magnitude :=
    if d.significand = 0 then ['0', '.', '0']
    else
      let (digits, place) := Decimal.shortest d.significand d.exponent
      decimalText digits place
  if d.negative then '-' :: magnitude else magnitude

def intText (n : Int) : List Char :=
  if n < 0 then '-' :: Nat.toDigits 10 n.natAbs else Nat.toDigits 10 n.natAbs

def text : Number → List Char
  | .int n => intText n
  | .double d => doubleText d

end Number

namespace Json

/-- A hexadecimal digit in lower case. -/
def hexDigit (n : Nat) : Char :=
  Nat.digitChar n

/-- A character as it stands inside a string. -/
def escape (c : Char) : List Char :=
  if c = '"' then ['\\', '"']
  else if c = '\\' then ['\\', '\\']
  else if c = '\n' then ['\\', 'n']
  else if c = '\r' then ['\\', 'r']
  else if c = '\t' then ['\\', 't']
  else if c = '\x08' then ['\\', 'b']
  else if c = '\x0c' then ['\\', 'f']
  else if c.toNat < 32 then
    ['\\', 'u', '0', '0', hexDigit (c.toNat / 16), hexDigit (c.toNat % 16)]
  else [c]

def quote (s : String) : List Char :=
  '"' :: (s.toList.flatMap escape ++ ['"'])

/-- How a text is laid out. -/
inductive Layout where
  | compact
  | indented
  deriving DecidableEq, Repr

namespace Layout

/-- What stands before an item or a closing bracket at some level. -/
def line : Layout → Nat → List Char
  | compact, _ => []
  | indented, level => '\n' :: List.replicate (2 * level) ' '

/-- What separates a key from its value. -/
def colon : Layout → List Char
  | compact => [':']
  | indented => [':', ' ']

end Layout

mutual

def write (l : Layout) (level : Nat) : Json → List Char
  | .null => ['n', 'u', 'l', 'l']
  | .bool true => ['t', 'r', 'u', 'e']
  | .bool false => ['f', 'a', 'l', 's', 'e']
  | .number n => n.text
  | .string s => quote s
  | .array [] => ['[', ']']
  | .array (j :: js) =>
    '[' :: (l.line (level + 1) ++ write l (level + 1) j ++ writeItems l (level + 1) js
      ++ l.line level ++ [']'])
  | .object [] => ['\x7b', '\x7d']
  | .object ((k, j) :: ms) =>
    '\x7b' :: (l.line (level + 1) ++ quote k ++ l.colon ++ write l (level + 1) j
      ++ writeMembers l (level + 1) ms ++ l.line level ++ ['\x7d'])

/-- The items after the first. -/
def writeItems (l : Layout) (level : Nat) : List Json → List Char
  | [] => []
  | j :: js => ',' :: (l.line level ++ write l level j ++ writeItems l level js)

/-- The members after the first. -/
def writeMembers (l : Layout) (level : Nat) : List (String × Json) → List Char
  | [] => []
  | (k, j) :: ms =>
    ',' :: (l.line level ++ quote k ++ l.colon ++ write l level j ++ writeMembers l level ms)

end

def text (l : Layout) (j : Json) : String :=
  String.ofList (j.write l 0)

end Json

end Catalog
