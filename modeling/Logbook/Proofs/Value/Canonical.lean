import Logbook.Proofs.Double.ReadBack
import Logbook.Proofs.Json.RoundTrip
import Logbook.Query.Grouping
import Logbook.Value.Order

/-!
# Equality through canonical forms

There are two equalities of values.  The operators compare two values side by side, numbers by
exact value and maps by key.  Grouping rewrites each value on its own into a canonical form and
compares the texts of these.  The two agree on well-formed values.

Numbers are the heart of it.  A number is first brought to an exact integer where it equals one, and
zero is one; of the doubles that are left no two have the same value, and none has the value of an
integer.  Maps are compared as sets of members: canonical members are sorted by key, and the sorted
lists are the same exactly if one list is a rearrangement of the other.

* `Number.compare_eq_iff`: numbers are equal exactly if their canonical numbers are the same.
* `Value.equal_iff`: the same for values.
* `Value.fingerprint_eq_iff`: equal fingerprints are equal canonical forms.
-/

namespace Logbook

/-! ## Doubles -/

namespace Double

attribute [local irreducible] places

theorem unit_pos : 0 < unit := Nat.two_pow_pos places

theorem natAbs_units (x : Double) : x.units.natAbs = x.magnitude := by
  unfold units
  split
  · rw [Int.natAbs_neg, Int.natAbs_natCast]
  · rw [Int.natAbs_natCast]

/-- The sign and the exponent of a double other than zero are those of its value. -/
theorem eq_of_units {x y : Double} (hx : x.units ≠ 0) (h : x.units = y.units) : x = y := by
  have hmagnitude : x.magnitude = y.magnitude := by
    rw [← natAbs_units, ← natAbs_units, h]
  -- the magnitude decides the exponent, and the two of them the mantissa
  have hexponent : x.exponent = y.exponent := by
    rw [← exponentOf_magnitude, ← exponentOf_magnitude, hmagnitude]
  have hmantissa : x.mantissa = y.mantissa := by
    rw [magnitude, magnitude, hexponent] at hmagnitude
    exact Nat.eq_of_mul_eq_mul_right (Nat.pow_pos (by decide)) hmagnitude
  have hnegative : x.negative = y.negative := by
    unfold units at hx h
    rw [← hmagnitude] at h
    cases hxn : x.negative <;> cases hyn : y.negative <;>
      simp only [hxn, hyn, if_true, if_false, Bool.false_eq_true] at hx h ⊢ <;> omega
  cases x
  cases y
  simp_all

theorem isIntegral_iff {x : Double} : x.isIntegral = true ↔ (unit : ℤ) ∣ x.units := by
  rw [isIntegral, beq_iff_eq, ← Nat.dvd_iff_mod_eq_zero, ← natAbs_units, Int.natCast_dvd]

/-- A double without a fraction has the units of its whole part. -/
theorem truncate_mul_unit {x : Double} (h : x.isIntegral = true) : x.truncate * unit = x.units :=
  Int.tdiv_mul_cancel (isIntegral_iff.1 h)

/-- The exact integer of a double has its value, and 64 bits. -/
theorem exactInteger?_eq_some {x : Double} {i : ℤ} (h : x.exactInteger? = some i) :
    i * unit = x.units ∧ wordFloor ≤ i ∧ i < wordCeil := by
  have hunit : (0 : ℤ) < unit := Int.natCast_pos.2 unit_pos
  unfold exactInteger? at h
  split at h
  · rename_i hx
    obtain ⟨hintegral, hlow, hhigh⟩ := hx
    rw [← Option.some.inj h]
    rw [← truncate_mul_unit hintegral] at hlow hhigh
    exact ⟨truncate_mul_unit hintegral, le_of_mul_le_mul_right hlow hunit,
      lt_of_mul_lt_mul_right hhigh hunit.le⟩
  · exact absurd h (by simp)

/-- A double that is no exact integer is not zero. -/
theorem units_ne_zero {x : Double} (h : x.exactInteger? = none) : x.units ≠ 0 := by
  intro hx
  have hunit : (0 : ℤ) < unit := Int.natCast_pos.2 unit_pos
  have hlow : wordFloor * unit ≤ x.units := by
    rw [hx]
    exact mul_nonpos_of_nonpos_of_nonneg (by decide) hunit.le
  have hhigh : x.units < wordCeil * unit := by
    rw [hx]
    exact mul_pos (by decide) hunit
  have hintegral : x.isIntegral = true := isIntegral_iff.2 (hx ▸ dvd_zero _)
  rw [exactInteger?, if_pos ⟨hintegral, hlow, hhigh⟩] at h
  exact absurd h (by simp)

/-- The order of a double and an integer is always strict. -/
theorem compareToInt_ne_eq (x : Double) (i : ℤ) : x.compareToInt i ≠ .eq := by
  unfold compareToInt
  split
  · exact Ordering.noConfusion
  split
  · exact Ordering.noConfusion
  split
  · split <;> exact Ordering.noConfusion
  · rename_i hne
    exact hne

end Double

/-! ## Numbers -/

namespace Number

/-- The canonical number is the exact integer or double that the order goes by. -/
theorem canonical_eq (n : Number) : n.canonical = n.exactOrDouble.elim .int .float := by
  unfold canonical
  cases n with
  | int i => rfl
  | float x =>
    rw [exactOrDouble, exactInteger?]
    cases x.exactInteger? <;> rfl

theorem exactOrDouble_eq_inr {n : Number} {x : Double} (h : n.exactOrDouble = .inr x) :
    x.exactInteger? = none := by
  unfold exactOrDouble at h
  split at h
  · exact absurd h (by simp)
  · split at h
    · exact absurd h (by simp)
    · rename_i hnone
      rw [← Sum.inr.inj h]
      exact hnone

/-- **Numbers are equal exactly if their canonical numbers are the same.** -/
theorem compare_eq_iff {a b : Number} : a.compare b = .eq ↔ a.canonical = b.canonical := by
  rw [canonical_eq, canonical_eq, compare]
  rcases ha : a.exactOrDouble with i | x <;> rcases hb : b.exactOrDouble with j | y
  · rw [Sum.elim_inl, Sum.elim_inl, Number.int.injEq]
    exact compare_eq_iff_eq
  · refine ⟨fun h => ?_, fun h => Number.noConfusion h⟩
    exact absurd (Ordering.swap_eq_eq.1 h) (y.compareToInt_ne_eq i)
  · exact ⟨fun h => absurd h (x.compareToInt_ne_eq j), fun h => Number.noConfusion h⟩
  · rw [Sum.elim_inr, Sum.elim_inr, Number.float.injEq]
    refine ⟨fun h => ?_, fun h => ?_⟩
    · exact Double.eq_of_units (Double.units_ne_zero (exactOrDouble_eq_inr ha))
        (compare_eq_iff_eq.1 h)
    · rw [h]
      exact compare_eq_iff_eq.2 rfl

theorem inRange_canonical {n : Number} (h : n.InRange) : n.canonical.InRange := by
  unfold canonical
  cases n with
  | int i => exact h
  | float x =>
    rw [exactInteger?]
    cases hx : x.exactInteger? with
    | none => exact h
    | some i => exact (Double.exactInteger?_eq_some hx).2

end Number

/-! ## Sorted members -/

namespace Members

theorem ne_gt_eq_isLE (o : Ordering) : (o != .gt) = o.isLE := by
  cases o <;> rfl

/-- An order that turns around with its operands leaves no two things without an order. -/
theorem isLE_or_isLE {α : Type} {cmp : α → α → Ordering} [Std.OrientedCmp cmp] (a b : α) :
    ((cmp a b).isLE || (cmp b a).isLE) = true := by
  rw [@Std.OrientedCmp.eq_swap _ cmp _ b a]
  cases cmp a b <;> rfl

theorem perm_sorted (ms : Members) : (sorted ms).Perm ms := List.mergeSort_perm ms _

theorem pairwise_sorted (ms : Members) :
    (sorted ms).Pairwise fun a b => (Ord.compare a.1 b.1).isLE = true := by
  unfold sorted
  simp only [ne_gt_eq_isLE]
  refine List.pairwise_mergeSort (fun a b c hab hbc => ?_) (fun a b => ?_) ms
  · exact Std.TransOrd.isLE_trans hab hbc
  · exact isLE_or_isLE a.1 b.1

/-- Members that are equal in key and stand in one map are the same. -/
theorem eq_of_mem {ms : Members} (hkeys : (keys ms).Nodup) {a b : String × Value}
    (ha : a ∈ ms) (hb : b ∈ ms) (h : a.1 = b.1) : a = b := by
  have hget := (get?_eq_some_iff hkeys).2 ha
  rw [h, (get?_eq_some_iff hkeys).2 hb] at hget
  exact Prod.ext h (Option.some.inj hget).symm

/-- Sorting forgets the order of the members, and nothing else. -/
theorem sorted_eq_iff {ms ns : Members} (hkeys : (keys ms).Nodup) :
    sorted ms = sorted ns ↔ ms.Perm ns := by
  refine ⟨fun h => ?_, fun h => ?_⟩
  · have hperm := (perm_sorted ms).symm
    rw [h] at hperm
    exact hperm.trans (perm_sorted ns)
  · have hperm : (sorted ms).Perm (sorted ns) :=
      (perm_sorted ms).trans (h.trans (perm_sorted ns).symm)
    refine List.Perm.eq_of_pairwise (fun a b ha hb hab hba => ?_) (pairwise_sorted ms)
      (pairwise_sorted ns) hperm
    have hb' : b ∈ ms := h.mem_iff.2 ((perm_sorted ns).mem_iff.1 hb)
    exact eq_of_mem hkeys ((perm_sorted ms).mem_iff.1 ha) hb'
      (Std.LawfulEqOrd.eq_of_compare (Std.OrientedCmp.isLE_antisymm hab hba))

/-- Of two maps of one size, one has the members of the other if it has no others. -/
theorem perm_iff_subset {ms ns : Members} (hms : (keys ms).Nodup)
    (hlength : ms.length = ns.length) : ms.Perm ns ↔ ms ⊆ ns :=
  ⟨fun h => h.subset, fun h =>
    (List.subperm_of_subset (List.Nodup.of_map _ hms) h).perm_of_length_le hlength.ge⟩

end Members

/-! ## Values -/

namespace Value

theorem canonicalItems_eq_map : ∀ xs : List Value, canonicalItems xs = xs.map canonical
  | [] => by rw [canonicalItems, List.map_nil]
  | x :: xs => by rw [canonicalItems, canonicalItems_eq_map xs, List.map_cons]

theorem canonicalMembers_eq_map :
    ∀ ms : Members, canonicalMembers ms = ms.map fun m => (m.1, m.2.canonical)
  | [] => by rw [canonicalMembers, List.map_nil]
  | (k, v) :: ms => by rw [canonicalMembers, canonicalMembers_eq_map ms, List.map_cons]

@[simp] theorem keys_canonicalMembers (ms : Members) :
    Members.keys (canonicalMembers ms) = Members.keys ms := by
  rw [canonicalMembers_eq_map, Members.keys, Members.keys, List.map_map]
  rfl

theorem get?_canonicalMembers (key : String) : ∀ ms : Members,
    Members.get? key (canonicalMembers ms) = (Members.get? key ms).map canonical
  | [] => by rw [canonicalMembers, Members.get?_nil, Option.map_none]
  | (k, v) :: ms => by
    rw [canonicalMembers, Members.get?_cons, Members.get?_cons]
    split
    · rw [Option.map_some]
    · exact get?_canonicalMembers key ms

/-- A canonical member stands in a map exactly if an equal one stands there. -/
theorem mem_canonicalMembers_iff {ms : Members} (hkeys : (Members.keys ms).Nodup) {key : String}
    {v : Value} :
    (key, v) ∈ canonicalMembers ms ↔ ∃ w, Members.get? key ms = some w ∧ v = w.canonical := by
  have hcanonical : (Members.keys (canonicalMembers ms)).Nodup := by
    rw [keys_canonicalMembers]
    exact hkeys
  rw [← Members.get?_eq_some_iff hcanonical, get?_canonicalMembers, Option.map_eq_some_iff]
  exact ⟨fun ⟨w, hw, hv⟩ => ⟨w, hw, hv.symm⟩, fun ⟨w, hw, hv⟩ => ⟨w, hw, hv.symm⟩⟩

mutual

/-- **Values are equal exactly if their canonical forms are the same.** -/
theorem equal_iff : ∀ {a b : Value}, a.WellFormed → b.WellFormed →
    (a.equal b = true ↔ a.canonical = b.canonical)
  | .num m, .num n, _, _ => by
    rw [equal, canonical, canonical, beq_iff_eq, num.injEq]
    exact Number.compare_eq_iff
  | .list xs, .list ys, hxs, hys => by
    rw [WellFormed] at hxs hys
    rw [equal, canonical, canonical, list.injEq]
    exact equalItems_iff hxs hys
  | .map ms, .map ns, hms, hns => by
    have hkeys : (Members.keys (canonicalMembers ms)).Nodup := by
      rw [keys_canonicalMembers]
      exact hms.1
    rw [equal, canonical, canonical, map.injEq, Members.sorted_eq_iff hkeys, Bool.and_eq_true,
      beq_iff_eq, equalMembers_iff hms.2 hns]
    have hlength : ∀ ms : Members, (canonicalMembers ms).length = ms.length := fun ms => by
      rw [canonicalMembers_eq_map, List.length_map]
    refine ⟨fun ⟨hl, hsubset⟩ => ?_, fun h => ?_⟩
    · exact (Members.perm_iff_subset hkeys (by rw [hlength, hlength, hl])).2 hsubset
    · have hl := h.length_eq
      rw [hlength, hlength] at hl
      exact ⟨hl, h.subset⟩
  | .null, b, _, _ => by cases b <;> simp [equal, canonical]
  | .bool p, b, _, _ => by cases b <;> simp [equal, canonical]
  | .str s, b, _, _ => by cases b <;> simp [equal, canonical]
  | .num _, .null, _, _ | .num _, .bool _, _, _ | .num _, .str _, _, _ | .num _, .list _, _, _
  | .num _, .map _, _, _ | .list _, .null, _, _ | .list _, .bool _, _, _ | .list _, .num _, _, _
  | .list _, .str _, _, _ | .list _, .map _, _, _ | .map _, .null, _, _ | .map _, .bool _, _, _
  | .map _, .num _, _, _ | .map _, .str _, _, _ | .map _, .list _, _, _ => by
    simp [equal, canonical]

theorem equalItems_iff : ∀ {xs ys : List Value}, WellFormedItems xs → WellFormedItems ys →
    (equalItems xs ys = true ↔ canonicalItems xs = canonicalItems ys)
  | [], [], _, _ => by rw [equalItems, eq_self, eq_self]
  | [], y :: ys, _, _ => by simp [equalItems, canonicalItems]
  | x :: xs, [], _, _ => by simp [equalItems, canonicalItems]
  | x :: xs, y :: ys, hxs, hys => by
    rw [WellFormedItems] at hxs hys
    rw [equalItems, canonicalItems, canonicalItems, List.cons.injEq, Bool.and_eq_true,
      equal_iff hxs.1 hys.1, equalItems_iff hxs.2 hys.2]

theorem equalMembers_iff : ∀ {ms ns : Members}, WellFormedMembers ms → (map ns).WellFormed →
    (equalMembers ms ns = true ↔ canonicalMembers ms ⊆ canonicalMembers ns)
  | [], ns, _, _ => by
    rw [equalMembers, canonicalMembers]
    exact ⟨fun _ => List.nil_subset _, fun _ => rfl⟩
  | (k, v) :: ms, ns, hms, hns => by
    rw [WellFormedMembers] at hms
    rw [equalMembers, canonicalMembers, Bool.and_eq_true, equalMembers_iff hms.2 hns,
      List.cons_subset, mem_canonicalMembers_iff hns.1]
    refine and_congr_left fun _ => ?_
    cases hget : Members.get? k ns with
    | none => simp
    | some w =>
      refine (equal_iff hms.1 (hns.get? hget)).trans ⟨fun h => ⟨w, rfl, h⟩, ?_⟩
      rintro ⟨w', hw', h⟩
      rw [Option.some.inj hw']
      exact h

end

/-! ## Fingerprints -/

mutual

/-- Canonical values can be written and read back like others. -/
theorem wellFormed_canonical : ∀ {v : Value}, v.WellFormed → v.canonical.WellFormed
  | .null, h => h
  | .bool _, h => h
  | .str _, h => h
  | .num n, h => by
    rw [canonical]
    exact Number.inRange_canonical h
  | .list xs, h => by
    rw [canonical]
    exact wellFormedItems_canonical h
  | .map ms, h => by
    rw [WellFormed] at h
    have hperm := Members.perm_sorted (canonicalMembers ms)
    have hmembers := wellFormedMembers_iff.1 (wellFormedMembers_canonical h.2)
    rw [canonical, WellFormed, wellFormedMembers_iff]
    refine ⟨(hperm.map _).nodup_iff.2 ?_, fun m hm => hmembers m (hperm.mem_iff.1 hm)⟩
    have hkeys := keys_canonicalMembers ms
    rw [Members.keys] at hkeys
    rw [hkeys]
    exact h.1

theorem wellFormedItems_canonical :
    ∀ {xs : List Value}, WellFormedItems xs → WellFormedItems (canonicalItems xs)
  | [], h => h
  | x :: xs, h => by
    rw [WellFormedItems] at h
    rw [canonicalItems, WellFormedItems]
    exact ⟨wellFormed_canonical h.1, wellFormedItems_canonical h.2⟩

theorem wellFormedMembers_canonical :
    ∀ {ms : Members}, WellFormedMembers ms → WellFormedMembers (canonicalMembers ms)
  | [], h => h
  | (k, v) :: ms, h => by
    rw [WellFormedMembers] at h
    rw [canonicalMembers, WellFormedMembers]
    exact ⟨wellFormed_canonical h.1, wellFormedMembers_canonical h.2⟩

end

/-- **Lists of values have one fingerprint exactly if their canonical forms are the same.** -/
theorem fingerprint_eq_iff {xs ys : List Value} (hxs : WellFormedItems xs)
    (hys : WellFormedItems ys) :
    fingerprint xs = fingerprint ys ↔ canonicalItems xs = canonicalItems ys := by
  refine ⟨fun h => ?_, fun h => ?_⟩
  · exact list.inj (text_injective (wellFormedItems_canonical hxs)
      (wellFormedItems_canonical hys) h)
  · rw [fingerprint, fingerprint, h]

end Value

end Logbook
