import Logbook.Decimal

/-!
# Doubles

The finite binary64 values, held exactly: a sign, a mantissa and an exponent, with the two
zeros apart.  Every such value is a whole number of units of `2^-1074`, so `units` turns
comparing and truncating into integer arithmetic in which nothing is rounded.

* `Double.units`: the value, counted in units of `2^-1074`.
* `Double.compare`: the order of the values; the two zeros are equal.
* `Double.truncate`, `Double.isIntegral`: the whole part.
* `Double.ofDecimal?`: the nearest double to a decimal, a half going to the even mantissa, and
  none when it lies beyond the largest.
-/

namespace Logbook

/-- A finite double: `±mantissa · 2^exponent` units of `2^-1074`.  Below the least normal
value the exponent is zero; above, the mantissa has its full 53 bits. -/
structure Double where
  negative : Bool
  mantissa : Nat
  exponent : Nat
  mantissa_lt : mantissa < Nat.pow 2 53
  exponent_le : exponent ≤ 2045
  normal : exponent = 0 ∨ Nat.pow 2 52 ≤ mantissa
deriving DecidableEq, Repr

namespace Double

/-! ## The exact value -/

/-- A unit is `2^-1074`: it stands this many binary places below one. -/
def places : Nat := 1074

/-- The number of units in one. -/
def unit : Nat := Nat.pow 2 places

/-- The absolute value in units. -/
def magnitude (x : Double) : Nat := x.mantissa * Nat.pow 2 x.exponent

/-- The value in units. -/
def units (x : Double) : Int :=
  if x.negative then -(x.magnitude : Int) else x.magnitude

/-- The zero of a sign. -/
def zero (negative : Bool) : Double := ⟨negative, 0, 0, by decide, by decide, .inl rfl⟩

@[simp] theorem units_zero (negative : Bool) : (zero negative).units = 0 := by
  cases negative <;> rfl

/-- Doubles are ordered by value. -/
def compare (x y : Double) : Ordering := Ord.compare x.units y.units

/-- Holds of the doubles without a fraction. -/
def isIntegral (x : Double) : Bool := x.magnitude % unit == 0

/-- The value with its fraction cut off. -/
def truncate (x : Double) : Int := x.units.tdiv unit

/-! ## Rounding -/

/-- The double with these parts, if there is one. -/
def ofParts? (negative : Bool) (mantissa exponent : Nat) : Option Double :=
  if h : mantissa < Nat.pow 2 53 ∧ exponent ≤ 2045
      ∧ (exponent = 0 ∨ Nat.pow 2 52 ≤ mantissa) then
    some ⟨negative, mantissa, exponent, h.1, h.2.1, h.2.2⟩
  else
    none

/-- The quotient rounded to the nearest natural number, a half to the even one. -/
def roundQuotient (num den : Nat) : Nat :=
  let q := num / den
  match Ord.compare (2 * (num % den)) den with
  | .lt => q
  | .gt => q + 1
  | .eq => if q % 2 = 0 then q else q + 1

/-- The exponent of the double nearest to this many units, give or take a carry. -/
def exponentOf (units : Nat) : Nat := if units < Nat.pow 2 53 then 0 else units.log2 - 52

/-- The double nearest to `num / den` units, none when it lies beyond the largest. -/
def ofRatio? (negative : Bool) (num den : Nat) : Option Double :=
  let exponent := exponentOf (num / den)
  let mantissa := roundQuotient num (den * Nat.pow 2 exponent)
  if mantissa < Nat.pow 2 53 then ofParts? negative mantissa exponent
  else ofParts? negative (Nat.pow 2 52) (exponent + 1)

/-- The double nearest to a decimal.  A decimal of `10^310` or more has none, one below
`10^-330` gives zero; the bounds only keep the powers of ten small. -/
def ofDecimal? (negative : Bool) (d : Decimal) : Option Double :=
  if d.digits = 0 ∨ d.leading < -330 then some (zero negative)
  else if 309 < d.leading then none
  else
    ofRatio? negative (d.digits * Nat.pow 10 d.exponent.toNat * unit)
      (Nat.pow 10 (-d.exponent).toNat)

end Double

end Logbook
