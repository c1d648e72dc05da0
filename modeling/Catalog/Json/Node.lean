import Catalog.Json.Value

/-!
What a text says, up to the place where it stops being JSON. A node records everything that a
one-pass reader may come to ask for: values in the order of the text, and flaws where they stand.
What a decoder never looks at cannot make it fail, so the first problem in text order is the one
reported.
-/
namespace Catalog.Json

/-- How a text fails to be JSON: it ends too early, or something stands where it must not. -/
inductive Flaw where
  | cutShort
  | malformed
  deriving DecidableEq, Repr

/-- A number as it is written. -/
structure Numeral where
  negative : Bool
  whole : List Char
  fraction : List Char
  /-- The exponent with its sign, if one is written. -/
  exponent : Option Int
  /-- Whether a point or an exponent is written. -/
  isWhole : Bool
  deriving DecidableEq, Repr

/-- The key of a member, read as a string and read as a number. -/
structure Key where
  text : Except Flaw String
  numeral : Except Flaw Numeral
  /-- Whether the closing quote follows the number at once. -/
  isNumeral : Bool

mutual

inductive Node where
  /-- No value begins here. -/
  | missing (flaw : Flaw)
  /-- A word begins here that is none of null, true and false. -/
  | word (flaw : Flaw)
  | null
  | bool (value : Bool)
  | number (numeral : Except Flaw Numeral)
  | string (text : Except Flaw String)
  | array (items : Items)
  | object (members : Members)

/-- The items of an array up to its bracket or to the flaw that ends the text. -/
inductive Items where
  | close
  | flaw (flaw : Flaw)
  | item (node : Node) (rest : Items)

/-- The members of an object up to its brace or to the flaw that ends the text. -/
inductive Members where
  | close
  | flaw (flaw : Flaw)
  /-- No string stands where a key must stand. -/
  | stray (flaw : Flaw)
  | member (key : Key) (node : Node) (rest : Members)

end

namespace Numeral

/-- The number that a string of decimal digits denotes. -/
def natOf (digits : List Char) : Nat :=
  digits.foldl (fun n d => 10 * n + (d.toNat - '0'.toNat)) 0

/-- Whole numbers are exact where 64 bits hold them, signed or unsigned; a negative zero and all
other numbers are doubles. Beyond the range of doubles there is no value. -/
def value? (n : Numeral) : Option Number :=
  let whole := natOf n.whole
  if n.isWhole ∧ n.negative = false ∧ whole < UInt64.size then some (.int whole)
  else if n.isWhole ∧ n.negative ∧ 0 < whole ∧ 2 * whole ≤ UInt64.size then some (.int (-whole))
  else
    (Decimal.Double.ofDecimal? n.negative (natOf (n.whole ++ n.fraction))
      (n.exponent.getD 0 - n.fraction.length)).map .double

end Numeral

end Catalog.Json
