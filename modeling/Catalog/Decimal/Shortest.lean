import Catalog.Decimal.Double

/-!
The shortest decimal that reads back as a given double. For one digit, two digits and so on, the
two neighbours of the value on that decimal grid are compared with the interval of numbers that
round to the double; the first grid with a hit decides, and of two hits the nearer one.
-/
namespace Catalog.Decimal

/-- The numbers that round to `significand · 2 ^ exponent`, in units of a quarter of its last
place. The ends belong to the interval where the significand is even. -/
structure Interval where
  low : Nat
  value : Nat
  high : Nat
  closed : Bool

/-- Below a power of two the doubles lie twice as dense. -/
def interval (significand : Nat) (exponent : Int) : Interval where
  low := 4 * significand -
    if significand = Double.leastFull ∧ Double.leastExponent < exponent then 1 else 2
  value := 4 * significand
  high := 4 * significand + 2
  closed := significand % 2 = 0

/-- Whether `num / den` lies in the interval. -/
def Interval.contains (i : Interval) (num den : Nat) : Bool :=
  if i.closed then i.low * den ≤ num ∧ num ≤ i.high * den
  else i.low * den < num ∧ num < i.high * den

/-- The greatest `k` with `10 ^ k ≤ significand · 2 ^ exponent`. -/
def magnitude (significand : Nat) (exponent : Int) : Int :=
  let guess := ((significand.log2 : Int) + exponent) * 30103 / 100000
  let reaches (k : Int) : Bool :=
    let (n, d) := scale significand 1 2 (-exponent)
    let (n, d) := scale n d 10 k
    d ≤ n
  if reaches (guess + 1) then guess + 1 else if reaches guess then guess else guess - 1

/-- The neighbours of a value on the grid of multiples of `10 ^ place` that round to the double:
the nearer one, or the even one of two that are equally near. -/
def onGrid? (i : Interval) (exponent place : Int) : Option Nat :=
  let (n, d) := scale 1 1 2 (exponent - 2)
  let (n, d) := scale n d 10 (-place)
  let floor := i.value * d / n
  let below := i.contains (floor * n) d
  let above := i.contains ((floor + 1) * n) d
  if below && above then
    let toBelow := i.value * d - floor * n
    let toAbove := (floor + 1) * n - i.value * d
    if toBelow < toAbove then some floor
    else if toAbove < toBelow then some (floor + 1)
    else some (floor + floor % 2)
  else if below then some floor
  else if above then some (floor + 1)
  else none

/-- Drops up to `fuel` trailing zeros, counting them into the exponent. -/
def dropZeros : Nat → Nat → Int → Nat × Int
  | 0, digits, place => (digits, place)
  | fuel + 1, digits, place =>
    if digits % 10 = 0 then dropZeros fuel (digits / 10) (place + 1) else (digits, place)

/-- Digits and a power of ten whose product is the shortest decimal that reads back as the positive
double `significand · 2 ^ exponent`. Seventeen digits always suffice. -/
def shortest (significand : Nat) (exponent : Int) : Nat × Int :=
  let i := interval significand exponent
  let top := magnitude significand exponent
  let hit := (List.range 17).findSome? fun (n : Nat) =>
    (onGrid? i exponent (top - n)).map fun digits => (digits, top - n)
  let (digits, place) := hit.getD (0, 0)
  dropZeros 17 digits place

end Catalog.Decimal
