import Logbook.Proofs.Value.Canonical

/-!
# Numbers in order

Numbers are compared case by case: two integers, an integer and a double, two doubles.  Behind the
cases stands one order.  A number has an exact value, counted in units of `2^-1074`, and doubles
beyond the integers of 64 bits stand in a band of their own, below or above all integers.  Numbers
are ordered by their bands, and by their values within a band.

Only integers that do not fit 64 bits could tell this from the order of the values, and no text
denotes one.  The band spares the proofs about sorting any assumption on the numbers, for the order
that goes by it is transitive on all of them.

* `Number.units`, `Number.band`: the exact value of a number, and its band.
* `Number.compare_eq_then`: numbers are ordered by band and value.
* `Number.compare_eq_compare_units`: where integers have 64 bits, they are ordered by value.
-/

namespace Logbook

/-! ## Bands -/

namespace Double

attribute [local irreducible] places

/-- Where a number of units lies: below the integers of 64 bits, among them, or above. -/
def bandOf (units : ℤ) : ℤ :=
  if wordCeil * unit ≤ units then 1 else if units < wordFloor * unit then -1 else 0

theorem bandOf_mono {u v : ℤ} (h : u ≤ v) : bandOf u ≤ bandOf v := by
  have hbounds : wordFloor * unit ≤ wordCeil * unit :=
    mul_le_mul_of_nonneg_right (by decide) (Int.natCast_nonneg unit)
  unfold bandOf
  split_ifs <;> omega

theorem bandOf_eq_zero {u : ℤ} (hlow : wordFloor * unit ≤ u) (hhigh : u < wordCeil * unit) :
    bandOf u = 0 := by
  rw [bandOf, if_neg (not_le.2 hhigh), if_neg (not_lt.2 hlow)]

/-- A double that is not whole is ordered against an integer by its whole part, and where that is
the integer by its fraction. -/
theorem compare_truncate_then {x : Double} (h : x.isIntegral = false) (i : ℤ) :
    (Ord.compare x.truncate i).then (if x.truncate * unit < x.units then .gt else .lt)
      = Ord.compare x.units (i * unit) := by
  have hunit : (0 : ℤ) < unit := Int.natCast_pos.2 unit_pos
  have hsplit : x.truncate * unit + x.units.tmod unit = x.units := Int.tdiv_mul_add_tmod _ _
  have hlow := Int.lt_tmod_of_pos x.units hunit
  have hhigh := Int.tmod_lt_of_pos x.units hunit
  have hrest : x.units.tmod unit ≠ 0 := by
    intro hzero
    have hintegral := isIntegral_iff.2 (Int.dvd_of_tmod_eq_zero hzero)
    rw [h] at hintegral
    exact Bool.noConfusion hintegral
  rcases lt_trichotomy x.truncate i with hlt | heq | hgt
  · -- the next whole number is still at most `i`
    have hstep : (x.truncate + 1) * unit ≤ i * unit := mul_le_mul_of_nonneg_right hlt hunit.le
    rw [add_mul, one_mul] at hstep
    rw [compare_lt_iff_lt.2 hlt, compare_lt_iff_lt.2 (by omega)]
    rfl
  · rw [← heq, compare_eq_iff_eq.2 rfl, Ordering.eq_then]
    split_ifs with hfraction
    · exact (compare_gt_iff_gt.2 hfraction).symm
    · exact (compare_lt_iff_lt.2 (by omega)).symm
  · have hstep : (i + 1) * unit ≤ x.truncate * unit := mul_le_mul_of_nonneg_right hgt hunit.le
    rw [add_mul, one_mul] at hstep
    rw [compare_gt_iff_gt.2 hgt, compare_gt_iff_gt.2 (by omega)]
    rfl

/-- A double that is no exact integer is ordered against an integer by band and value. -/
theorem compareToInt_eq_then {x : Double} (h : x.exactInteger? = none) (i : ℤ) :
    x.compareToInt i
      = (Ord.compare (bandOf x.units) 0).then (Ord.compare x.units (i * unit)) := by
  rw [compareToInt]
  by_cases hhigh : wordCeil * unit ≤ x.units
  · rw [if_pos hhigh, bandOf, if_pos hhigh]
    rfl
  by_cases hlow : x.units < wordFloor * unit
  · rw [if_neg hhigh, if_pos hlow, bandOf, if_neg hhigh, if_pos hlow]
    rfl
  have hintegral : x.isIntegral = false := by
    by_contra hx
    rw [exactInteger?, if_pos ⟨by simpa using hx, not_lt.1 hlow, not_le.1 hhigh⟩] at h
    exact absurd h (by simp)
  rw [if_neg hhigh, if_neg hlow, bandOf_eq_zero (not_lt.1 hlow) (not_le.1 hhigh),
    ← compare_truncate_then hintegral]
  cases Ord.compare x.truncate i <;> rfl

end Double

/-! ## The order of numbers -/

namespace Number

/-- The exact value of a number, counted in units of `2^-1074`. -/
def units : Number → ℤ
  | int i => i * Double.unit
  | float x => x.units

/-- The band of a number.  All integers stand in one, also those without 64 bits. -/
def band : Number → ℤ
  | int _ => 0
  | float x => Double.bandOf x.units

theorem exactOrDouble_float (x : Double) :
    (float x).exactOrDouble = x.exactInteger?.elim (.inr x) .inl := by
  rw [exactOrDouble]
  cases x.exactInteger? <;> rfl

theorem units_eq_of_exact {n : Number} {i : ℤ} (h : n.exactOrDouble = .inl i) :
    n.band = 0 ∧ n.units = i * Double.unit := by
  cases n with
  | int j =>
    obtain rfl := Sum.inl.inj h
    exact ⟨rfl, rfl⟩
  | float x =>
    rw [exactOrDouble_float] at h
    rcases hx : x.exactInteger? with _ | j <;> rw [hx] at h
    · exact absurd h (by simp)
    · obtain rfl := Sum.inl.inj h
      obtain ⟨hunits, hlow, hhigh⟩ := Double.exactInteger?_eq_some hx
      have hunit : (0 : ℤ) < Double.unit := Int.natCast_pos.2 Double.unit_pos
      refine ⟨Double.bandOf_eq_zero ?_ ?_, hunits.symm⟩
      · rw [← hunits]
        exact mul_le_mul_of_nonneg_right hlow hunit.le
      · rw [← hunits]
        exact mul_lt_mul_of_pos_right hhigh hunit

theorem units_eq_of_double {n : Number} {x : Double} (h : n.exactOrDouble = .inr x) :
    n.band = Double.bandOf x.units ∧ n.units = x.units := by
  cases n with
  | int j => exact absurd h (by simp [exactOrDouble])
  | float y =>
    rw [exactOrDouble_float] at h
    rcases hy : y.exactInteger? with _ | j <;> rw [hy] at h
    · obtain rfl := Sum.inr.inj h
      exact ⟨rfl, rfl⟩
    · exact absurd h (by simp)

theorem compare_mul_unit (i j : ℤ) :
    Ord.compare (i * Double.unit) (j * Double.unit) = Ord.compare i j := by
  have hunit : (0 : ℤ) < Double.unit := Int.natCast_pos.2 Double.unit_pos
  simp only [Int.compare_eq_ite_lt, mul_lt_mul_iff_of_pos_right hunit]

/-- Bands follow values, where both numbers are doubles. -/
theorem then_compare_of_mono {f : ℤ → ℤ} (hf : ∀ {u v}, u ≤ v → f u ≤ f v) (u v : ℤ) :
    (Ord.compare (f u) (f v)).then (Ord.compare u v) = Ord.compare u v := by
  rcases lt_trichotomy (f u) (f v) with hlt | heq | hgt
  · have huv : u < v := lt_of_not_ge fun h => absurd (hf h) (not_le.2 hlt)
    rw [compare_lt_iff_lt.2 hlt, compare_lt_iff_lt.2 huv]
    rfl
  · rw [compare_eq_iff_eq.2 heq]
    rfl
  · have huv : v < u := lt_of_not_ge fun h => absurd (hf h) (not_le.2 hgt)
    rw [compare_gt_iff_gt.2 hgt, compare_gt_iff_gt.2 huv]
    rfl

/-- **Numbers are ordered by their bands, and by their values within a band.** -/
theorem compare_eq_then (a b : Number) :
    a.compare b = (Ord.compare a.band b.band).then (Ord.compare a.units b.units) := by
  rw [compare]
  rcases ha : a.exactOrDouble with i | x <;> rcases hb : b.exactOrDouble with j | y
  · rw [(units_eq_of_exact ha).1, (units_eq_of_exact ha).2, (units_eq_of_exact hb).1,
      (units_eq_of_exact hb).2, compare_mul_unit]
    rfl
  · rw [(units_eq_of_exact ha).1, (units_eq_of_exact ha).2, (units_eq_of_double hb).1,
      (units_eq_of_double hb).2]
    show (y.compareToInt i).swap = _
    rw [Double.compareToInt_eq_then (exactOrDouble_eq_inr hb), Ordering.swap_then,
      ← Std.OrientedOrd.eq_swap, ← Std.OrientedOrd.eq_swap]
  · rw [(units_eq_of_double ha).1, (units_eq_of_double ha).2, (units_eq_of_exact hb).1,
      (units_eq_of_exact hb).2]
    exact Double.compareToInt_eq_then (exactOrDouble_eq_inr ha) j
  · rw [(units_eq_of_double ha).1, (units_eq_of_double ha).2, (units_eq_of_double hb).1,
      (units_eq_of_double hb).2, then_compare_of_mono Double.bandOf_mono]
    rfl

/-- The order of numbers is total. -/
instance : Std.TransCmp Number.compare := by
  have h : Number.compare = compareLex (compareOn band) (compareOn units) := by
    funext a b
    exact compare_eq_then a b
  rw [h]
  infer_instance

theorem band_eq_bandOf {n : Number} (h : n.InRange) : n.band = Double.bandOf n.units := by
  cases n with
  | float x => rfl
  | int i =>
    have hunit : (0 : ℤ) < Double.unit := Int.natCast_pos.2 Double.unit_pos
    exact (Double.bandOf_eq_zero (mul_le_mul_of_nonneg_right h.1 hunit.le)
      (mul_lt_mul_of_pos_right h.2 hunit)).symm

/-- **Where integers have 64 bits, numbers are ordered by their exact values.** -/
theorem compare_eq_compare_units {a b : Number} (ha : a.InRange) (hb : b.InRange) :
    a.compare b = Ord.compare a.units b.units := by
  rw [compare_eq_then, band_eq_bandOf ha, band_eq_bandOf hb,
    then_compare_of_mono Double.bandOf_mono]

end Number

end Logbook
