import Logbook.Double.Shortest
import Mathlib.Tactic.NormNum
import Mathlib.Tactic.Positivity
import Mathlib.Tactic.Ring

/-!
# A double is read back from its shortest decimal

Rounding depends on the ratio of digits to power of ten alone, so zeros may move between the two.
The search for a short decimal keeps only what reads back.  What is left to show is that the exact
value, which stands in when the search ends empty, is rounded to the double it came from.

* `Decimal.toDigits_mul_pow`: zeros behind the digits of a number.
* `Double.ofDecimal?_shift`: a decimal is rounded the same way when it is written with more zeros.
* `Double.ofDecimal?_exact`, `Double.ofDecimal?_shortest`: the exact value and the chosen decimal
  read back.
-/

namespace Logbook

namespace Decimal

/-- A power of ten writes zeros behind the digits. -/
theorem toDigits_mul_pow {n : ℕ} (hn : 0 < n) (k : ℕ) :
    Nat.toDigits 10 (n * 10 ^ k) = Nat.toDigits 10 n ++ List.replicate k '0' := by
  induction k with
  | zero => simp
  | succ k ih =>
    have h10 : 10 ≤ n * 10 ^ (k + 1) := by
      have hpos : 0 < n * 10 ^ k := by positivity
      rw [pow_succ, ← Nat.mul_assoc]
      omega
    rw [Nat.toDigits_of_base_le (by decide) h10, pow_succ, ← Nat.mul_assoc,
      Nat.mul_div_cancel _ (by decide), Nat.mul_mod_left, ih, List.replicate_succ',
      List.append_assoc]
    rfl

end Decimal

namespace Double

/-! ## Rounding a ratio -/

theorem roundQuotient_mul_left {c : ℕ} (hc : 0 < c) (num den : ℕ) :
    roundQuotient (c * num) (c * den) = roundQuotient num den := by
  have hr : 2 * (c * num % (c * den)) = c * (2 * (num % den)) := by
    rw [Nat.mul_mod_mul_left]; ring
  have hcmp : Ord.compare (c * (2 * (num % den))) (c * den)
      = Ord.compare (2 * (num % den)) den := by
    simp only [Nat.compare_eq_ite_lt, Nat.mul_lt_mul_left hc]
  simp only [roundQuotient, hr, hcmp, Nat.mul_div_mul_left _ _ hc]

theorem ofRatio?_mul_left {c : ℕ} (hc : 0 < c) (negative : Bool) (num den : ℕ) :
    ofRatio? negative (c * num) (c * den) = ofRatio? negative num den := by
  simp only [ofRatio?, Nat.mul_div_mul_left _ _ hc, Nat.mul_assoc, roundQuotient_mul_left hc]

theorem ofRatio?_congr (negative : Bool) {num den num' den' : ℕ} (hd : 0 < den) (hd' : 0 < den')
    (h : num * den' = num' * den) : ofRatio? negative num den = ofRatio? negative num' den' := by
  rw [← ofRatio?_mul_left hd' negative num den, ← ofRatio?_mul_left hd negative num' den',
    Nat.mul_comm den' num, h, Nat.mul_comm num' den, Nat.mul_comm den' den]

/-- Zeros behind the digits make up for a smaller exponent. -/
theorem ofDecimal?_shift (negative : Bool) (n : ℕ) (e : ℤ) (k : ℕ) :
    ofDecimal? negative ⟨n * 10 ^ k, e - k⟩ = ofDecimal? negative ⟨n, e⟩ := by
  rcases Nat.eq_zero_or_pos n with rfl | hn
  · rw [Nat.zero_mul, ofDecimal?, ofDecimal?, if_pos (Or.inl rfl), if_pos (Or.inl rfl)]
  have hpos : 0 < n * 10 ^ k := by positivity
  have hlead : Decimal.leading ⟨n * 10 ^ k, e - k⟩ = Decimal.leading ⟨n, e⟩ := by
    simp only [Decimal.leading, Decimal.numeral, Decimal.toDigits_mul_pow hn, List.length_append,
      List.length_replicate, Nat.cast_add]
    ring
  have hratio : ofRatio? negative (n * 10 ^ k * Nat.pow 10 (e - k).toNat * unit)
        (Nat.pow 10 (-(e - k)).toNat)
      = ofRatio? negative (n * Nat.pow 10 e.toNat * unit) (Nat.pow 10 (-e).toNat) := by
    have hexp : k + (e - k).toNat + (-e).toNat = e.toNat + (-(e - k)).toNat := by omega
    simp only [Nat.pow_eq]
    refine ofRatio?_congr negative (by positivity) (by positivity) ?_
    calc n * 10 ^ k * 10 ^ (e - k).toNat * unit * 10 ^ (-e).toNat
        = n * unit * 10 ^ (k + (e - k).toNat + (-e).toNat) := by rw [pow_add, pow_add]; ring
      _ = n * 10 ^ e.toNat * unit * 10 ^ (-(e - k)).toNat := by rw [hexp, pow_add]; ring
  simp only [ofDecimal?, hlead, hratio, hn.ne', hpos.ne']


/-- Away from the two guards a decimal is rounded as a ratio. -/
theorem ofDecimal?_of_leading {negative : Bool} {d : Decimal} (hd : d.digits ≠ 0)
    (hlow : ¬d.leading < -330) (hhigh : ¬309 < d.leading) :
    ofDecimal? negative d = ofRatio? negative (d.digits * Nat.pow 10 d.exponent.toNat * unit)
      (Nat.pow 10 (-d.exponent).toNat) := by
  rw [ofDecimal?, if_neg (not_or.2 ⟨hd, hlow⟩), if_neg hhigh]

/-! ## The exact value -/

theorem log2_mul_pow {m : ℕ} (e : ℕ) (hlo : 2 ^ 52 ≤ m) (hhi : m < 2 ^ 53) :
    (m * 2 ^ e).log2 = 52 + e := by
  have hm : m * 2 ^ e ≠ 0 := by positivity
  refine (Nat.log2_eq_iff hm).2 ⟨?_, ?_⟩
  · rw [pow_add]
    exact Nat.mul_le_mul_right _ hlo
  · rw [show 52 + e + 1 = 53 + e by omega, pow_add]
    exact Nat.mul_lt_mul_of_pos_right hhi (by positivity)

/-- The exponent of a double is the one that its magnitude asks for. -/
theorem exponentOf_magnitude (x : Double) : exponentOf x.magnitude = x.exponent := by
  have hm := x.mantissa_lt
  unfold exponentOf magnitude
  rcases x.normal with he | hn
  · rw [he, Nat.pow_eq, pow_zero, Nat.mul_one, if_pos hm]
  · simp only [Nat.pow_eq] at hm hn ⊢
    rcases Nat.eq_zero_or_pos x.exponent with he | he
    · rw [he, pow_zero, Nat.mul_one, if_pos hm]
    · have hbig : ¬ x.mantissa * 2 ^ x.exponent < 2 ^ 53 := by
        have : 2 ^ 52 * 2 ^ 1 ≤ x.mantissa * 2 ^ x.exponent :=
          Nat.mul_le_mul hn (Nat.pow_le_pow_right (by decide) he)
        omega
      rw [if_neg hbig, log2_mul_pow _ hn hm]
      omega

/-- A double is the nearest one to its own magnitude. -/
theorem ofRatio?_magnitude (x : Double) : ofRatio? x.negative x.magnitude 1 = some x := by
  have hround : roundQuotient x.magnitude (1 * Nat.pow 2 x.exponent) = x.mantissa := by
    have hpos : 0 < Nat.pow 2 x.exponent := Nat.pow_pos (by decide)
    have hc : Ord.compare 0 (Nat.pow 2 x.exponent) = .lt := by
      rw [Nat.compare_eq_lt]; exact hpos
    simp only [roundQuotient, magnitude, Nat.one_mul, Nat.mul_mod_left, Nat.mul_zero, hc,
      Nat.mul_div_cancel _ hpos]
  have hparts : ofParts? x.negative x.mantissa x.exponent = some x := by
    rw [ofParts?, dif_pos ⟨x.mantissa_lt, x.exponent_le, x.normal⟩]
  simp only [ofRatio?, Nat.div_one, exponentOf_magnitude, hround, if_pos x.mantissa_lt, hparts]

theorem mul_two_pow_lt {m e a b : ℕ} (hm : m < 2 ^ a) (he : e ≤ b) : m * 2 ^ e < 2 ^ (a + b) := by
  rw [pow_add]
  exact Nat.mul_lt_mul_of_lt_of_le hm (Nat.pow_le_pow_right (by decide) he) (Nat.two_pow_pos b)

-- The powers below are too large to be evaluated: both sides are written as a power of a power.
theorem ten_pow_le_five_pow {a b : ℕ} (ha : a = 124 * 6) (hb : b = 179 * 6) :
    10 ^ a ≤ 5 ^ b := by
  rw [ha, hb, pow_mul, pow_mul]
  exact Nat.pow_le_pow_left (by norm_num) 6

theorem two_pow_mul_five_pow_le {a b : ℕ} (ha : a = 256 * 4 + b) :
    2 ^ a * 5 ^ b ≤ 10 ^ (309 + b) := by
  have h2 : 2 ^ (256 * 4) ≤ 10 ^ (9 + 75 * 4) := by
    rw [pow_mul, pow_add, pow_mul]
    calc (2 ^ 256) ^ 4 ≤ (116 * 10 ^ 75) ^ 4 := Nat.pow_le_pow_left (by norm_num) 4
      _ = 116 ^ 4 * (10 ^ 75) ^ 4 := mul_pow _ _ 4
      _ ≤ 10 ^ 9 * (10 ^ 75) ^ 4 := Nat.mul_le_mul_right _ (by norm_num)
  calc 2 ^ a * 5 ^ b = 2 ^ (256 * 4) * (2 * 5) ^ b := by
        rw [ha, pow_add, Nat.mul_assoc, ← mul_pow]
    _ ≤ 10 ^ (9 + 75 * 4) * 10 ^ b := Nat.mul_le_mul_right _ h2
    _ = 10 ^ (309 + b) := (pow_add 10 _ b).symm

theorem places_eq : places = 1074 := rfl

attribute [local irreducible] places

/-- The digits of the exact value are neither so few nor so many that rounding gives up. -/
theorem length_numeral_exact (x : Double) (hx : 0 < x.magnitude) :
    124 * 6 < x.exact.numeral.length ∧ x.exact.numeral.length ≤ 309 + places := by
  have hb : places = 179 * 6 := places_eq
  unfold exact Decimal.numeral
  rw [Nat.pow_eq]
  refine ⟨?_, ?_⟩
  · generalize ha : 124 * 6 = a
    rw [← not_le, Nat.length_toDigits_le_iff (by decide) (by omega), not_lt]
    exact (ten_pow_le_five_pow ha.symm hb).trans (Nat.le_mul_of_pos_left _ hx)
  · rw [Nat.length_toDigits_le_iff (by decide) (by omega)]
    have hm : x.magnitude < 2 ^ (53 + 2045) := mul_two_pow_lt x.mantissa_lt x.exponent_le
    calc x.magnitude * 5 ^ places < 2 ^ (53 + 2045) * 5 ^ places :=
          Nat.mul_lt_mul_of_pos_right hm (by positivity)
      _ ≤ 10 ^ (309 + places) := two_pow_mul_five_pow_le (by omega)

/-- The exact value is rounded to the double it came from. -/
theorem ofDecimal?_exact (x : Double) (hx : 0 < x.magnitude) :
    ofDecimal? x.negative x.exact = some x := by
  obtain ⟨hlo, hhi⟩ := length_numeral_exact x hx
  have hb := places_eq
  have hlead : x.exact.leading = x.exact.numeral.length - places - 1 := by
    simp only [Decimal.leading, exact]
    ring
  have hlow : ¬x.exact.leading < -330 := by omega
  have hhigh : ¬309 < x.exact.leading := by omega
  have hzero : (-(places : ℤ)).toNat = 0 := by omega
  have hneg : (- -(places : ℤ)).toNat = places := by omega
  have hdigits : x.exact.digits ≠ 0 := by
    simp only [exact, Nat.pow_eq]
    positivity
  have hratio : ofRatio? x.negative (x.magnitude * 5 ^ places * 10 ^ 0 * 2 ^ places)
      (10 ^ places) = some x := by
    rw [← ofRatio?_magnitude x]
    refine ofRatio?_congr x.negative (by positivity) (by decide) ?_
    have h10 : 5 ^ places * 2 ^ places = 10 ^ places := (mul_pow 5 2 places).symm
    rw [pow_zero, Nat.mul_one, Nat.mul_one, Nat.mul_assoc, h10]
  rw [ofDecimal?_of_leading hdigits hlow hhigh]
  unfold unit exact
  simp only [Nat.pow_eq, hzero, hneg, hratio]

/-! ## The chosen decimal -/

theorem readsBack_of_search {x : Double} {d : Decimal} {count : ℕ} {grid : ℤ}
    (h : x.search count grid = some d) : x.readsBack d = true := by
  obtain ⟨i, -, hi⟩ := List.exists_of_findSome?_eq_some h
  exact List.find?_some hi

/-- Without a mantissa a double is a zero. -/
theorem zero_of_mantissa {x : Double} (hx : x.mantissa = 0) : zero x.negative = x := by
  have he : x.exponent = 0 := by
    rcases x.normal with he | hn
    · exact he
    · rw [hx] at hn
      exact absurd hn (by decide)
  cases x
  subst hx he
  rfl

theorem magnitude_pos {x : Double} (hx : x.mantissa ≠ 0) : 0 < x.magnitude :=
  Nat.mul_pos (Nat.pos_of_ne_zero hx) (Nat.pow_pos (by decide))

/-- The decimal that a double is written as is rounded to it. -/
theorem ofDecimal?_shortest (x : Double) : ofDecimal? x.negative x.shortest = some x := by
  unfold shortest
  by_cases hx : x.mantissa = 0
  · rw [if_pos hx, ← zero_of_mantissa hx]
    exact if_pos (Or.inl rfl)
  · rw [if_neg hx]
    cases hs : x.search 20 x.coarsest with
    | none => exact ofDecimal?_exact x (magnitude_pos hx)
    | some d => exact eq_of_beq (readsBack_of_search hs)

/-- Zero is written with exponent zero. -/
theorem exponent_shortest (x : Double) (h : x.shortest.digits = 0) : x.shortest.exponent = 0 := by
  by_cases hx : x.mantissa = 0
  · rw [shortest, if_pos hx]
  · have hread := x.ofDecimal?_shortest
    rw [ofDecimal?, if_pos (Or.inl h)] at hread
    have hmantissa := congrArg mantissa (Option.some.inj hread)
    exact absurd hmantissa.symm hx

end Double

end Logbook
