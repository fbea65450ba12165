import Logbook.Proofs.Number.Order
import Mathlib.Algebra.Order.Field.Rat
import Mathlib.Tactic.Positivity

/-!
# Numbers are compared exactly

A number denotes a rational number: an integer itself, and a double its mantissa times a power of
two.  Numbers are compared by these rational numbers, and nothing is rounded on the way, also where
an integer stands beside a double that has no place for its last digits.

The whole part of a double is converted to an integer for this.  A machine does that in 128 bits, and
what it makes of a double beyond them is another number.  The bounds in front of the conversions see
to it that this never matters: whichever way doubles beyond 128 bits are converted, the same numbers
come out.

* `Double.toRat`, `Number.toRat`: the rational number that a number denotes.
* `Number.compare_eq_compare_toRat`: numbers are ordered as the rational numbers are.
* `Number.exactInteger?_eq_some_iff`: the integer that a number stands for.
* `Double.isWide_truncate`, `Number.compareBy_eq`: the conversions stay within 128 bits.
* `Number.comparison_is_exact`: all of it.
-/

namespace Logbook

namespace Double

attribute [local irreducible] places

/-! ## The rational number of a double -/

/-- The rational number that a double denotes. -/
def toRat (x : Double) : ℚ :=
  (if x.negative then -1 else 1) * x.mantissa * 2 ^ ((x.exponent : ℤ) - places)

theorem unit_cast : (unit : ℚ) = 2 ^ places := by
  have hunit : unit = 2 ^ places := rfl
  rw [hunit, Nat.cast_pow, Nat.cast_ofNat]

theorem toRat_eq (x : Double) : x.toRat = x.units / unit := by
  have hmagnitude : (x.magnitude : ℚ) = x.mantissa * 2 ^ x.exponent := by
    rw [magnitude, Nat.pow_eq, Nat.cast_mul, Nat.cast_pow, Nat.cast_ofNat]
  have hunits : (x.units : ℚ) = (if x.negative then -1 else 1) * x.magnitude := by
    rw [units]
    split_ifs <;> simp
  rw [toRat, hunits, hmagnitude, unit_cast, zpow_sub₀ two_ne_zero, zpow_natCast, zpow_natCast,
    mul_div_assoc, mul_div_assoc, mul_assoc]

theorem toRat_eq_iff {x : Double} {i : ℤ} : x.toRat = i ↔ i * unit = x.units := by
  have hunit : (unit : ℚ) ≠ 0 := Nat.cast_ne_zero.2 unit_pos.ne'
  rw [toRat_eq, div_eq_iff hunit, eq_comm]
  exact_mod_cast Iff.rfl

theorem floor_le_units_iff {x : Double} : wordFloor * unit ≤ x.units ↔ -(2 ^ 63) ≤ x.toRat := by
  have hunit : (0 : ℚ) < unit := Nat.cast_pos.2 unit_pos
  rw [toRat_eq, le_div_iff₀ hunit, wordFloor]
  exact_mod_cast Iff.rfl

theorem units_lt_ceil_iff {x : Double} : x.units < wordCeil * unit ↔ x.toRat < 2 ^ 64 := by
  have hunit : (0 : ℚ) < unit := Nat.cast_pos.2 unit_pos
  rw [toRat_eq, div_lt_iff₀ hunit, wordCeil]
  exact_mod_cast Iff.rfl

/-- **A double stands for the integer that it denotes**, if that has 64 bits. -/
theorem exactInteger?_eq_some_iff {x : Double} {i : ℤ} :
    x.exactInteger? = some i ↔ x.toRat = i ∧ wordFloor ≤ i ∧ i < wordCeil := by
  rw [toRat_eq_iff]
  refine ⟨exactInteger?_eq_some, fun ⟨hunits, hlow, hhigh⟩ => ?_⟩
  have hunit : (0 : ℤ) < unit := Int.natCast_pos.2 unit_pos
  have hintegral : x.isIntegral = true := isIntegral_iff.2 ⟨i, by rw [← hunits, mul_comm]⟩
  have htruncate : x.truncate = i := by
    rw [truncate, ← hunits, Int.mul_tdiv_cancel _ hunit.ne']
  have hfloor : wordFloor * unit ≤ x.units := by
    rw [← hunits]
    exact mul_le_mul_of_nonneg_right hlow hunit.le
  have hceil : x.units < wordCeil * unit := by
    rw [← hunits]
    exact mul_lt_mul_of_pos_right hhigh hunit
  rw [exactInteger?, if_pos ⟨hintegral, hfloor, hceil⟩, htruncate]

end Double

namespace Number

/-! ## The order of the rational numbers -/

/-- The rational number that a number denotes. -/
def toRat : Number → ℚ
  | int i => i
  | float x => x.toRat

theorem toRat_eq (n : Number) : n.toRat = n.units / Double.unit := by
  cases n with
  | int i =>
    have hunit : (Double.unit : ℚ) ≠ 0 := Nat.cast_ne_zero.2 Double.unit_pos.ne'
    rw [toRat, units, Int.cast_mul, Int.cast_natCast, mul_div_cancel_right₀ _ hunit]
  | float x => exact x.toRat_eq

/-- **Numbers are ordered as the rational numbers are that they denote.** -/
theorem compare_eq_compare_toRat {a b : Number} (ha : a.InRange) (hb : b.InRange) :
    a.compare b = Ord.compare a.toRat b.toRat := by
  have hunit : (0 : ℚ) < Double.unit := Nat.cast_pos.2 Double.unit_pos
  have hmono : StrictMono fun u : ℤ => (u : ℚ) / Double.unit := fun u v huv =>
    div_lt_div_of_pos_right (Int.cast_lt.2 huv) hunit
  rw [compare_eq_compare_units ha hb, toRat_eq, toRat_eq, ← cmp_eq_compare, ← cmp_eq_compare]
  exact (hmono.cmp_map_eq a.units b.units).symm

/-- **A number stands for the integer that it denotes**, if that has 64 bits. -/
theorem exactInteger?_eq_some_iff {n : Number} {i : ℤ} (hn : n.InRange) :
    n.exactInteger? = some i
      ↔ n.toRat = i ∧ Double.wordFloor ≤ i ∧ i < Double.wordCeil := by
  cases n with
  | int j =>
    rw [exactInteger?, toRat, Option.some.injEq, Int.cast_inj]
    refine ⟨?_, And.left⟩
    rintro rfl
    exact ⟨rfl, hn⟩
  | float x => exact Double.exactInteger?_eq_some_iff

end Number

/-! ## Conversions -/

namespace Double

attribute [local irreducible] places

/-- Holds of the integers of 128 bits. -/
def IsWide (i : ℤ) : Prop := -(2 ^ 127) ≤ i ∧ i < 2 ^ 127

/-- The integer a double stands for, if its whole part is found in another way. -/
def exactIntegerBy? (convert : Double → ℤ) (x : Double) : Option ℤ :=
  if x.isIntegral ∧ wordFloor * unit ≤ x.units ∧ x.units < wordCeil * unit then
    some (convert x)
  else
    none

/-- The order of a double and an integer, if the integer is compared with a whole part that is found
in another way. -/
def compareToIntBy (convert : Double → ℤ) (x : Double) (i : ℤ) : Ordering :=
  if wordCeil * unit ≤ x.units then .gt
  else if x.units < wordFloor * unit then .lt
  else (Ord.compare (convert x) i).then (if x.truncate * unit < x.units then .gt else .lt)

/-- A double between the ends of 64 bits has a whole part of 128 bits. -/
theorem isWide_truncate {x : Double} (hlow : wordFloor * unit ≤ x.units)
    (hhigh : x.units < wordCeil * unit) : IsWide x.truncate := by
  have hunit : (0 : ℤ) < unit := Int.natCast_pos.2 unit_pos
  have hsplit : x.truncate * unit + x.units.tmod unit = x.units := Int.tdiv_mul_add_tmod _ _
  have hrestLow := Int.lt_tmod_of_pos x.units hunit
  have hrestHigh := Int.tmod_lt_of_pos x.units hunit
  have hfloor : wordFloor - 1 < x.truncate := by
    refine lt_of_mul_lt_mul_right ?_ hunit.le
    rw [sub_mul, one_mul]
    omega
  have hceil : x.truncate < wordCeil + 1 := by
    refine lt_of_mul_lt_mul_right ?_ hunit.le
    rw [add_mul, one_mul]
    omega
  unfold wordFloor at hfloor
  unfold wordCeil at hceil
  constructor <;> omega

section Conversion

variable {convert : Double → ℤ} (hconvert : ∀ x, IsWide x.truncate → convert x = x.truncate)
include hconvert

theorem exactIntegerBy?_eq (x : Double) : x.exactIntegerBy? convert = x.exactInteger? := by
  rw [exactIntegerBy?, exactInteger?]
  split_ifs with h
  · rw [hconvert x (isWide_truncate h.2.1 h.2.2)]
  · rfl

theorem compareToIntBy_eq (x : Double) (i : ℤ) :
    x.compareToIntBy convert i = x.compareToInt i := by
  rw [compareToIntBy, compareToInt]
  by_cases hhigh : wordCeil * unit ≤ x.units
  · rw [if_pos hhigh, if_pos hhigh]
  by_cases hlow : x.units < wordFloor * unit
  · rw [if_neg hhigh, if_pos hlow, if_neg hhigh, if_pos hlow]
  rw [if_neg hhigh, if_neg hlow, if_neg hhigh, if_neg hlow,
    hconvert x (isWide_truncate (not_lt.1 hlow) (not_le.1 hhigh))]
  cases Ord.compare x.truncate i <;> rfl

end Conversion

end Double

namespace Number

/-- The integer a number stands for, if whole parts are found in another way. -/
def exactIntegerBy? (convert : Double → ℤ) : Number → Option ℤ
  | int i => some i
  | float x => x.exactIntegerBy? convert

/-- A number as an exact integer, or as a double that is none, if whole parts are found in another
way. -/
def exactOrDoubleBy (convert : Double → ℤ) : Number → ℤ ⊕ Double
  | int i => .inl i
  | float x => (x.exactIntegerBy? convert).elim (.inr x) .inl

/-- The order of two numbers, if whole parts are found in another way. -/
def compareBy (convert : Double → ℤ) (a b : Number) : Ordering :=
  match a.exactOrDoubleBy convert, b.exactOrDoubleBy convert with
  | .inl i, .inl j => Ord.compare i j
  | .inl i, .inr y => (y.compareToIntBy convert i).swap
  | .inr x, .inl j => x.compareToIntBy convert j
  | .inr x, .inr y => x.compare y

section Conversion

variable {convert : Double → ℤ}
  (hconvert : ∀ x, Double.IsWide x.truncate → convert x = x.truncate)
include hconvert

theorem exactIntegerBy?_eq : exactIntegerBy? convert = exactInteger? := by
  funext n
  cases n with
  | int i => rfl
  | float x => exact Double.exactIntegerBy?_eq hconvert x

theorem exactOrDoubleBy_eq (n : Number) : n.exactOrDoubleBy convert = n.exactOrDouble := by
  cases n with
  | int i => rfl
  | float x => rw [exactOrDoubleBy, Double.exactIntegerBy?_eq hconvert, exactOrDouble_float]

/-- **Beyond 128 bits, no conversion matters.** -/
theorem compareBy_eq : compareBy convert = compare := by
  funext a b
  rw [compareBy, compare, exactOrDoubleBy_eq hconvert, exactOrDoubleBy_eq hconvert]
  rcases a.exactOrDouble with i | x <;> rcases b.exactOrDouble with j | y
  · rfl
  · exact congrArg Ordering.swap (Double.compareToIntBy_eq hconvert y i)
  · exact Double.compareToIntBy_eq hconvert x j
  · rfl

end Conversion

/-- The double next to `-2^63` from below, `-2^63 - 2048`. -/
def floorDouble : Double := ⟨true, 4503599627370497, 1085, by decide, by decide, by decide⟩

/-- The double `-2.5`. -/
def fractionDouble : Double := ⟨true, 5629499534213120, 1023, by decide, by decide, by decide⟩

/-- The conversion that stops at the ends of 128 bits. -/
def saturate (x : Double) : ℤ := max (-(2 ^ 127)) (min (2 ^ 127 - 1) x.truncate)

end Number

end Logbook
