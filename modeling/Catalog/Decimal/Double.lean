/-!
Finite double-precision numbers in exact arithmetic: a sign and a significand scaled by a power of
two. Decimal numbers are rounded to the nearest double, a tie to the even significand.
-/
namespace Catalog.Decimal

/-- A finite double. The significand has 53 bits, or fewer where the exponent is the least one. -/
structure Double where
  negative : Bool
  significand : Nat
  exponent : Int
  deriving DecidableEq, Repr

namespace Double

/-- The exponent of the least positive double. -/
def leastExponent : Int := -1074

/-- The exponent of the greatest doubles. -/
def greatestExponent : Int := 971

/-- The least significand that takes all bits. -/
def leastFull : Nat := 4503599627370496

def zero (negative : Bool) : Double :=
  ⟨negative, 0, leastExponent⟩

end Double

/-- The quotient rounded to the nearest integer, a tie to the even one. -/
def roundHalfEven (num den : Nat) : Nat :=
  let q := num / den
  let r := num % den
  if 2 * r < den then q else if den < 2 * r then q + 1 else q + q % 2

/-- The fraction `num / den` divided by `b ^ e`, as a fraction. -/
def scale (num den b : Nat) (e : Int) : Nat × Nat :=
  if 0 ≤ e then (num, den * b.pow e.toNat) else (num * b.pow (-e).toNat, den)

namespace Double

/-- The significand and exponent of the double nearest to a positive fraction, if it is finite. -/
def ofFraction? (num den : Nat) : Option (Nat × Int) :=
  let low := max ((num.log2 : Int) - den.log2 - 53) leastExponent
  let (n, d) := scale num den 2 low
  let exponent := if d * (2 * leastFull) ≤ n then low + 1 else low
  let (n, d) := scale num den 2 exponent
  let significand := roundHalfEven n d
  let (significand, exponent) :=
    if significand = 2 * leastFull then (leastFull, exponent + 1) else (significand, exponent)
  if greatestExponent < exponent then none else some (significand, exponent)

/-- The number of decimal digits. -/
def digitCount (n : Nat) : Nat :=
  (Nat.toDigits 10 n).length

/-- The double nearest to `digits · 10 ^ exponent`, or none where that lies beyond the range.
Numbers far outside the range are settled by their count of digits. -/
def ofDecimal? (negative : Bool) (digits : Nat) (exponent : Int) : Option Double :=
  let places := (digitCount digits : Int) + exponent
  if digits = 0 ∨ places < -330 then some (zero negative)
  else if 310 < places then none
  else
    let (num, den) := scale digits 1 10 (-exponent)
    (ofFraction? num den).map fun (s, e) => ⟨negative, s, e⟩

end Double

end Catalog.Decimal
