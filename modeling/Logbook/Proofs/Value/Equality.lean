import Logbook.Proofs.Value.Congruence

/-!
# Equality of values

Equality compares two values as they stand, and it is not written in a way that treats the two
alike.  For two maps it goes through the members of the first, looks for each key in the second, and
asks no more of the second than its size.  That this is symmetric is a matter of counting: no map
has a key twice, so the members found are as many as the second map has, and so they are all of
them.  The same counting gives the members of the first map in the order of the second, and what is
left between two equal values is how they are spelled.

* `Value.exists_found`: the members that are found in the second map.
* `Value.respelled_of_equal`: equal values differ in spelling only.
* `Value.equal_is_equivalence`: equality is an equivalence relation, and which one.
* `Value.fingerprint_decides_equality`: keys have one fingerprint exactly if they are equal, value by
  value.
-/

namespace Logbook.Value

/-! ## Equal values differ in spelling only -/

theorem equalItems_iff_forall₂ {xs ys : List Value} :
    equalItems xs ys = true ↔ List.Forall₂ (fun x y => x.equal y = true) xs ys := by
  induction xs generalizing ys with
  | nil => cases ys <;> simp [equalItems]
  | cons x xs ih =>
    cases ys with
    | nil => simp [equalItems]
    | cons y ys => rw [equalItems, Bool.and_eq_true, ih, List.forall₂_cons]

theorem respelledItems_of_equalItems {xs : List Value}
    (h : ∀ x ∈ xs, ∀ y, x.WellFormed → y.WellFormed → x.equal y = true → Respelled x y)
    {ys : List Value} (hxs : WellFormedItems xs) (hys : WellFormedItems ys)
    (hxy : equalItems xs ys = true) : RespelledItems xs ys := by
  induction xs generalizing ys with
  | nil =>
    cases ys with
    | nil => trivial
    | cons y ys => exact absurd hxy (by simp [equalItems])
  | cons x xs ih =>
    cases ys with
    | nil => exact absurd hxy (by simp [equalItems])
    | cons y ys =>
      rw [List.forall_mem_cons] at h
      rw [WellFormedItems] at hxs hys
      rw [equalItems, Bool.and_eq_true] at hxy
      exact ⟨h.1 y hxs.1 hys.1 hxy.1, ih h.2 hxs.2 hys.2 hxy.2⟩

/-- The members of a map that are found in another, in their order, differ in spelling only. -/
theorem exists_found {ms : Members}
    (h : ∀ m ∈ ms, ∀ w, m.2.WellFormed → w.WellFormed → m.2.equal w = true → Respelled m.2 w)
    {ns : Members} (hms : WellFormedMembers ms) (hns : (map ns).WellFormed)
    (hmn : equalMembers ms ns = true) :
    ∃ ps : Members, RespelledMembers ms ps ∧ Members.keys ps = Members.keys ms ∧ ps ⊆ ns := by
  induction ms with
  | nil => exact ⟨[], trivial, rfl, List.nil_subset ns⟩
  | cons m ms ih =>
    obtain ⟨k, v⟩ := m
    rw [List.forall_mem_cons] at h
    rw [WellFormedMembers] at hms
    rw [equalMembers, Bool.and_eq_true] at hmn
    obtain ⟨hfound, hrest⟩ := hmn
    obtain ⟨ps, hps, hkeys, hsubset⟩ := ih h.2 hms.2 hrest
    cases hget : Members.get? k ns with
    | none =>
      rw [hget] at hfound
      exact absurd hfound (by simp)
    | some w =>
      rw [hget] at hfound
      refine ⟨(k, w) :: ps, ⟨rfl, h.1 w hms.1 (hns.get? hget) hfound, hps⟩, ?_, ?_⟩
      · rw [Members.keys, List.map_cons, ← Members.keys, hkeys]
        rfl
      · exact List.cons_subset.2 ⟨Members.mem_of_get? hget, hsubset⟩

/-- **Equal values differ in spelling only.** -/
theorem respelled_of_equal {a b : Value} (ha : a.WellFormed) (hb : b.WellFormed)
    (h : a.equal b = true) : Respelled a b := by
  induction a using Value.induction generalizing b with
  | null =>
    cases b with
    | null => trivial
    | _ => exact absurd h (by simp [equal])
  | bool p =>
    cases b with
    | bool q => exact beq_iff_eq.1 h
    | _ => exact absurd h (by simp [equal])
  | num m =>
    cases b with
    | num n =>
      rw [equal, beq_iff_eq, Number.compare_eq_compare_units ha hb] at h
      exact compare_eq_iff_eq.1 h
    | _ => exact absurd h (by simp [equal])
  | str s =>
    cases b with
    | str t => exact beq_iff_eq.1 h
    | _ => exact absurd h (by simp [equal])
  | list xs ih =>
    cases b with
    | list ys => exact respelledItems_of_equalItems (fun x hx y hwx hwy => ih x hx hwx hwy) ha hb h
    | _ => exact absurd h (by simp [equal])
  | map ms ih =>
    cases b with
    | map ns =>
      rw [equal, Bool.and_eq_true, beq_iff_eq] at h
      obtain ⟨hlength, hmembers⟩ := h
      obtain ⟨ps, hps, hkeys, hsubset⟩ :=
        exists_found (fun m hm w hwm hww => ih m hm hwm hww) ha.2 hb hmembers
      -- as many members are found as there are, so none is left over
      have hfound : ps.length = ns.length := by
        have h := congrArg List.length hkeys
        rwa [Members.keys, Members.keys, List.length_map, List.length_map, hlength] at h
      have hnodup : (Members.keys ps).Nodup := by
        rw [hkeys]
        exact ha.1
      exact ⟨ps, hps, (Members.perm_iff_subset hnodup hfound).2 hsubset⟩
    | _ => exact absurd h (by simp [equal])

/-! ## The equivalence relation -/

/-- **Equality is an equivalence relation on JSON values**, whatever their nesting.  Two values are
equal exactly if they differ in spelling only: numbers in how an exact value is written, and maps in
the order of their members, at any depth. -/
theorem equal_is_equivalence :
    Equivalence (fun a b : { v : Value // v.WellFormed } => a.1.equal b.1 = true) ∧
    ∀ a b : Value, a.WellFormed → b.WellFormed → (a.equal b = true ↔ Respelled a b) := by
  refine ⟨⟨?_, ?_, ?_⟩, ?_⟩
  · intro a
    exact (Equals.refl a.2).equal
  · intro a b hab
    exact (equal_iff b.2 a.2).2 ((equal_iff a.2 b.2).1 hab).symm
  · intro a b c hab hbc
    rw [equal_iff a.2 b.2] at hab
    rw [equal_iff b.2 c.2] at hbc
    exact (equal_iff a.2 c.2).2 (hab.trans hbc)
  · intro a b ha hb
    exact ⟨respelled_of_equal ha hb, fun h => (Equals.of_respelled ha hb h).equal⟩

/-- The double `7.0`. -/
def sevenDouble : Double := ⟨false, 7881299347898368, 1024, by decide, by decide, by decide⟩

/-- The map `{"a":7,"b":[{"x":null,"y":0}]}`. -/
def plainMap : Value :=
  .map [("a", .num (.int 7)), ("b", .list [.map [("x", .null), ("y", .num (.int 0))]])]

/-- The map `{"b":[{"y":-0.0,"x":null}],"a":7.0}`. -/
def turnedMap : Value :=
  .map [("b", .list [.map [("y", .num (.float (.zero true))), ("x", .null)]]),
    ("a", .num (.float sevenDouble))]

theorem wellFormed_plainMap : plainMap.WellFormed := by
  simp [plainMap, WellFormed, WellFormedItems, WellFormedMembers, Members.keys, Number.InRange,
    Double.wordFloor, Double.wordCeil]

theorem wellFormed_turnedMap : turnedMap.WellFormed := by
  simp [turnedMap, WellFormed, WellFormedItems, WellFormedMembers, Members.keys, Number.InRange]

/-- Members turn around at two depths, and zero loses its sign. -/
theorem equal_is_equivalence_turnedMap :
    plainMap.equal turnedMap = true ∧ turnedMap.equal plainMap = true ∧
    plainMap.equal plainMap = true ∧ Respelled plainMap turnedMap := by
  obtain ⟨⟨-, hsymm, htrans⟩, hspelled⟩ := equal_is_equivalence
  have hequal : plainMap.equal turnedMap = true := by decide +kernel
  have hturned := @hsymm ⟨plainMap, wellFormed_plainMap⟩ ⟨turnedMap, wellFormed_turnedMap⟩ hequal
  refine ⟨hequal, hturned, ?_, (hspelled _ _ wellFormed_plainMap wellFormed_turnedMap).1 hequal⟩
  exact @htrans ⟨plainMap, wellFormed_plainMap⟩ ⟨turnedMap, wellFormed_turnedMap⟩
    ⟨plainMap, wellFormed_plainMap⟩ hequal hturned

/-! ## Fingerprints -/

/-- **Fingerprints decide equality.**  Two keys have the same fingerprint exactly if they are equal,
value by value. -/
theorem fingerprint_decides_equality {xs ys : List Value} (hxs : WellFormedItems xs)
    (hys : WellFormedItems ys) :
    fingerprint xs = fingerprint ys ↔ List.Forall₂ (fun x y => x.equal y = true) xs ys := by
  rw [fingerprint_eq_iff hxs hys, ← equalItems_iff hxs hys, equalItems_iff_forall₂]

/-- Spelling does not tell keys apart, and punctuation inside a text does not bring them together. -/
theorem fingerprint_decides_equality_turnedMap :
    fingerprint [plainMap, .null] = fingerprint [turnedMap, .null] ∧
    fingerprint [.str "a\",\"b", .str "c"] ≠ fingerprint [.str "a", .str "b\",\"c"] := by
  have hplain : WellFormedItems [plainMap, .null] := ⟨wellFormed_plainMap, trivial, trivial⟩
  have hturned : WellFormedItems [turnedMap, .null] := ⟨wellFormed_turnedMap, trivial, trivial⟩
  have htexts : ∀ s t, WellFormedItems [.str s, .str t] := fun _ _ => ⟨trivial, trivial, trivial⟩
  constructor
  · refine (fingerprint_decides_equality hplain hturned).2 (.cons ?_ (.cons rfl .nil))
    decide +kernel
  · rw [Ne, fingerprint_decides_equality (htexts _ _) (htexts _ _), List.forall₂_cons]
    rintro ⟨h, -⟩
    exact absurd h (by decide)

end Logbook.Value
