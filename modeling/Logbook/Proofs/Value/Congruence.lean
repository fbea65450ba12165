import Logbook.Proofs.Value.Lookup
import Logbook.Proofs.Value.Order

/-!
# Equal values side by side

Whatever is read off a value can be read off its canonical form: what stands under a key, what a
path leads to, and how the value is ordered against another.  Values that are equal have one
canonical form, so nothing of this tells them apart.

Equal values are those that differ in spelling only: a number may be written as another number of
the same exact value, and the members of a map may stand in another order, at any depth.

* `Value.Equals`: equality of well-formed values.
* `Value.Equals.rel_get?`, `Record.rel_lookup`: equal values have equal parts.
* `Value.compare?_canonical`: the range operators see canonical forms only.
* `Value.Respelled`, `Value.Equals.of_respelled`: another spelling of a value equals it.
-/

namespace Logbook

/-! ## Numbers -/

namespace Number

theorem exactOrDouble_canonical (n : Number) : n.canonical.exactOrDouble = n.exactOrDouble := by
  rw [canonical_eq]
  rcases h : n.exactOrDouble with i | x
  · rfl
  · rw [Sum.elim_inr, exactOrDouble_float, exactOrDouble_eq_inr h]
    rfl

theorem compare_canonical (m n : Number) : m.canonical.compare n.canonical = m.compare n := by
  rw [compare, compare, exactOrDouble_canonical, exactOrDouble_canonical]

/-- Numbers of one exact value are equal. -/
theorem canonical_eq_of_units {m n : Number} (hm : m.InRange) (hn : n.InRange)
    (h : m.units = n.units) : m.canonical = n.canonical := by
  rw [← compare_eq_iff, compare_eq_compare_units hm hn, h]
  exact compare_eq_iff_eq.2 rfl

end Number

namespace Value

/-! ## Equality -/

/-- Holds of well-formed values that are equal. -/
structure Equals (a b : Value) : Prop where
  left : a.WellFormed
  right : b.WellFormed
  equal : a.equal b = true

theorem equals_iff {a b : Value} :
    a.Equals b ↔ a.WellFormed ∧ b.WellFormed ∧ a.canonical = b.canonical := by
  constructor
  · rintro ⟨ha, hb, h⟩
    exact ⟨ha, hb, (equal_iff ha hb).1 h⟩
  · rintro ⟨ha, hb, h⟩
    exact ⟨ha, hb, (equal_iff ha hb).2 h⟩

theorem Equals.refl {a : Value} (h : a.WellFormed) : a.Equals a :=
  equals_iff.2 ⟨h, h, rfl⟩

theorem Equals.canonical_eq {a b : Value} (h : a.Equals b) : a.canonical = b.canonical :=
  (equals_iff.1 h).2.2

/-- Equal values are equal to the same values. -/
theorem Equals.equal_congr {a a' b b' : Value} (ha : a.Equals a') (hb : b.Equals b') :
    a.equal b = a'.equal b' := by
  rw [Bool.eq_iff_iff, equal_iff ha.left hb.left, equal_iff ha.right hb.right, ha.canonical_eq,
    hb.canonical_eq]

/-! ## Parts of equal values -/

/-- Options that are both missing or both there are related part by part. -/
theorem rel_of_map_canonical {o p : Option Value} (ho : ∀ v ∈ o, v.WellFormed)
    (hp : ∀ v ∈ p, v.WellFormed) (h : o.map canonical = p.map canonical) :
    Option.Rel Equals o p := by
  rcases o with _ | v <;> rcases p with _ | w
  · exact .none
  · exact absurd h (by simp)
  · exact absurd h (by simp)
  · exact .some (equals_iff.2 ⟨ho v rfl, hp w rfl, Option.some.inj h⟩)

/-- **Equal maps have equal values under every key.** -/
theorem Equals.rel_get? {ms ns : Members} (h : (map ms).Equals (map ns)) (key : String) :
    Option.Rel Equals (Members.get? key ms) (Members.get? key ns) := by
  have hkeys : ∀ {ps : Members}, (map ps).WellFormed →
      (Members.keys (canonicalMembers ps)).Nodup := by
    intro ps hps
    rw [keys_canonicalMembers]
    exact hps.1
  have hsorted := h.canonical_eq
  rw [canonical, canonical, map.injEq, Members.sorted_eq_iff (hkeys h.left)] at hsorted
  refine rel_of_map_canonical (fun v => h.left.get?) (fun v => h.right.get?) ?_
  rw [← get?_canonicalMembers, ← get?_canonicalMembers]
  ext v
  rw [Members.get?_eq_some_iff (hkeys h.left), Members.get?_eq_some_iff (hkeys h.right),
    hsorted.mem_iff]

theorem forall₂_of_map_canonical {xs ys : List Value} (hxs : ∀ x ∈ xs, x.WellFormed)
    (hys : ∀ y ∈ ys, y.WellFormed) (h : xs.map canonical = ys.map canonical) :
    List.Forall₂ Equals xs ys := by
  induction xs generalizing ys with
  | nil =>
    cases ys with
    | nil => exact .nil
    | cons y ys => exact absurd h (by simp)
  | cons x xs ih =>
    cases ys with
    | nil => exact absurd h (by simp)
    | cons y ys =>
      rw [List.forall_mem_cons] at hxs hys
      obtain ⟨hhead, htail⟩ := List.cons.inj h
      exact .cons (equals_iff.2 ⟨hxs.1, hys.1, hhead⟩) (ih hxs.2 hys.2 htail)

/-- Equal values are lists together, with equal items. -/
theorem Equals.rel_items? {a b : Value} (h : a.Equals b) :
    Option.Rel (List.Forall₂ Equals) a.items? b.items? := by
  have hcanonical := h.canonical_eq
  cases a with
  | list xs =>
    cases b with
    | list ys =>
      rw [canonical, canonical, list.injEq, canonicalItems_eq_map, canonicalItems_eq_map]
        at hcanonical
      exact .some (forall₂_of_map_canonical (wellFormedItems_iff.1 h.left)
        (wellFormedItems_iff.1 h.right) hcanonical)
    | _ => exact absurd hcanonical (by simp [canonical])
  | _ => cases b <;> first | exact .none | exact absurd hcanonical (by simp [canonical])

/-- Equal values are maps together, with equal members. -/
theorem Equals.rel_members? {a b : Value} (h : a.Equals b) :
    Option.Rel (fun ms ns => (map ms).Equals (map ns)) a.members? b.members? := by
  have hcanonical := h.canonical_eq
  cases a with
  | map ms =>
    cases b with
    | map ns => exact .some h
    | _ => exact absurd hcanonical (by simp [canonical])
  | _ => cases b <;> first | exact .none | exact absurd hcanonical (by simp [canonical])

/-- Equal values are texts together, and then the same text. -/
theorem Equals.string?_eq {a b : Value} (h : a.Equals b) : a.string? = b.string? := by
  have hcanonical := h.canonical_eq
  cases a with
  | str s =>
    cases b with
    | str t => exact congrArg some (str.inj hcanonical)
    | _ => exact absurd hcanonical (by simp [canonical])
  | _ => cases b <;> first | rfl | exact absurd hcanonical (by simp [canonical])

/-! ## Paths -/

theorem rel_bind {α β : Type} {R : α → α → Prop} {S : β → β → Prop} {o p : Option α}
    {f g : α → Option β} (h : Option.Rel R o p) (hfg : ∀ a b, R a b → Option.Rel S (f a) (g b)) :
    Option.Rel S (o.bind f) (p.bind g) := by
  cases h with
  | none => exact .none
  | some hab => exact hfg _ _ hab

theorem rel_or {α : Type} {R : α → α → Prop} {o o' p p' : Option α} (h : Option.Rel R o p)
    (h' : Option.Rel R o' p') : Option.Rel R (o.or o') (p.or p') := by
  cases h with
  | none => exact h'
  | some hab => exact .some hab

/-- A path leads from equal values to equal values. -/
theorem Equals.rel_follow {a b : Value} (h : a.Equals b) (path : List String) :
    Option.Rel Equals (follow path a) (follow path b) := by
  induction path generalizing a b with
  | nil =>
    rw [follow, follow]
    exact .some h
  | cons key path ih =>
    rw [follow_cons, follow_cons]
    refine rel_bind h.rel_members? fun ms ns hmap => ?_
    exact rel_bind (hmap.rel_get? key) fun v w hvw => ih hvw

end Value

namespace Record

/-- **Equal records have equal values in every field.** -/
theorem rel_lookup {r s : Record} (h : (Value.map r).Equals (.map s)) (field : String) :
    Option.Rel Value.Equals (r.lookup field) (s.lookup field) := by
  rw [lookup_eq, lookup_eq]
  refine Value.rel_or (h.rel_get? field) ?_
  split_ifs
  · exact h.rel_follow _
  · exact .none

end Record

namespace Value

/-! ## The range operators -/

theorem compareItems?_canonical {xs : List Value}
    (h : ∀ x ∈ xs, ∀ y, compare? x.canonical y.canonical = compare? x y) (ys : List Value) :
    compareItems? (xs.map canonical) (ys.map canonical) = compareItems? xs ys := by
  induction xs generalizing ys with
  | nil => cases ys <;> rfl
  | cons x xs ih =>
    rw [List.forall_mem_cons] at h
    cases ys with
    | nil => rfl
    | cons y ys =>
      rw [List.map_cons, List.map_cons, compareItems?_cons, compareItems?_cons, h.1, ih h.2]

/-- **Values are compared as their canonical forms are.** -/
theorem compare?_canonical (a b : Value) :
    compare? a.canonical b.canonical = compare? a b := by
  induction a using Value.induction generalizing b with
  | null => cases b <;> rfl
  | bool p => cases b <;> rfl
  | num m =>
    cases b with
    | num n => exact congrArg some (Number.compare_canonical m n)
    | _ => rfl
  | str s => cases b <;> rfl
  | list xs ih =>
    cases b with
    | list ys =>
      rw [canonical, canonical, canonicalItems_eq_map, canonicalItems_eq_map]
      exact compareItems?_canonical ih ys
    | _ => rfl
  | map ms ih => cases b <;> rfl

/-- Equal values compare alike. -/
theorem Equals.compare?_congr {a a' b b' : Value} (ha : a.Equals a') (hb : b.Equals b') :
    a.compare? b = a'.compare? b' := by
  rw [← compare?_canonical a, ← compare?_canonical a', ha.canonical_eq, hb.canonical_eq]

/-! ## Spellings -/

mutual

/-- Holds when two values differ in spelling only: in the kind of number by which an exact value is
written, and in the order of the members of a map. -/
def Respelled : Value → Value → Prop
  | null, null => True
  | bool a, bool b => a = b
  | num m, num n => m.units = n.units
  | str s, str t => s = t
  | list xs, list ys => RespelledItems xs ys
  | map ms, map ns => ∃ ps : Members, RespelledMembers ms ps ∧ ps.Perm ns
  | _, _ => False

/-- Holds when the items differ in spelling only. -/
def RespelledItems : List Value → List Value → Prop
  | [], [] => True
  | x :: xs, y :: ys => Respelled x y ∧ RespelledItems xs ys
  | _, _ => False

/-- Holds when the members have the same keys, one by one, and differ in spelling only. -/
def RespelledMembers : List (String × Value) → List (String × Value) → Prop
  | [], [] => True
  | (k, v) :: ms, (l, w) :: ns => k = l ∧ Respelled v w ∧ RespelledMembers ms ns
  | _, _ => False

end

theorem canonicalItems_eq_of_respelled {xs : List Value}
    (h : ∀ x ∈ xs, ∀ y, x.WellFormed → y.WellFormed → Respelled x y → x.canonical = y.canonical)
    {ys : List Value} (hxs : WellFormedItems xs) (hys : WellFormedItems ys)
    (hxy : RespelledItems xs ys) : canonicalItems xs = canonicalItems ys := by
  induction xs generalizing ys with
  | nil =>
    cases ys with
    | nil => rfl
    | cons y ys => exact absurd hxy (by simp [RespelledItems])
  | cons x xs ih =>
    cases ys with
    | nil => exact absurd hxy (by simp [RespelledItems])
    | cons y ys =>
      rw [List.forall_mem_cons] at h
      rw [WellFormedItems] at hxs hys
      rw [RespelledItems] at hxy
      rw [canonicalItems, canonicalItems, h.1 y hxs.1 hys.1 hxy.1, ih h.2 hxs.2 hys.2 hxy.2]

theorem canonicalMembers_eq_of_respelled {ms : Members}
    (h : ∀ m ∈ ms, ∀ w, m.2.WellFormed → w.WellFormed → Respelled m.2 w →
      m.2.canonical = w.canonical)
    {ns : Members} (hms : WellFormedMembers ms) (hns : WellFormedMembers ns)
    (hmn : RespelledMembers ms ns) : canonicalMembers ms = canonicalMembers ns := by
  induction ms generalizing ns with
  | nil =>
    cases ns with
    | nil => rfl
    | cons n ns => exact absurd hmn (by simp [RespelledMembers])
  | cons m ms ih =>
    obtain ⟨k, v⟩ := m
    cases ns with
    | nil => exact absurd hmn (by simp [RespelledMembers])
    | cons n ns =>
      obtain ⟨l, w⟩ := n
      rw [List.forall_mem_cons] at h
      rw [WellFormedMembers] at hms hns
      rw [RespelledMembers] at hmn
      obtain ⟨rfl, hvw, hmn⟩ := hmn
      rw [canonicalMembers, canonicalMembers, h.1 w hms.1 hns.1 hvw, ih h.2 hms.2 hns.2 hmn]

/-- **Another spelling has the same canonical form.** -/
theorem canonical_eq_of_respelled {a b : Value} (ha : a.WellFormed) (hb : b.WellFormed)
    (h : Respelled a b) : a.canonical = b.canonical := by
  induction a using Value.induction generalizing b with
  | null => cases b <;> first | rfl | exact absurd h (by simp [Respelled])
  | bool p =>
    cases b with
    | bool q => exact congrArg bool h
    | _ => exact absurd h (by simp [Respelled])
  | num m =>
    cases b with
    | num n => exact congrArg num (Number.canonical_eq_of_units ha hb h)
    | _ => exact absurd h (by simp [Respelled])
  | str s =>
    cases b with
    | str t => exact congrArg str h
    | _ => exact absurd h (by simp [Respelled])
  | list xs ih =>
    cases b with
    | list ys =>
      have hitems := canonicalItems_eq_of_respelled (fun x hx y hwx hwy => ih x hx hwx hwy) ha hb h
      rw [canonical, canonical, hitems]
    | _ => exact absurd h (by simp [Respelled])
  | map ms ih =>
    cases b with
    | map ns =>
      rw [WellFormed] at ha hb
      rw [Respelled] at h
      obtain ⟨ps, hmp, hperm⟩ := h
      have hps : WellFormedMembers ps := wellFormedMembers_iff.2 fun m hm =>
        wellFormedMembers_iff.1 hb.2 m (hperm.mem_iff.1 hm)
      have hmembers := canonicalMembers_eq_of_respelled (fun m hm w hwm hww => ih m hm hwm hww)
        ha.2 hps hmp
      have hkeys : (Members.keys (canonicalMembers ps)).Nodup := by
        rw [← hmembers, keys_canonicalMembers]
        exact ha.1
      rw [canonical, canonical, hmembers, map.injEq, Members.sorted_eq_iff hkeys,
        canonicalMembers_eq_map, canonicalMembers_eq_map]
      exact hperm.map _
    | _ => exact absurd h (by simp [Respelled])

/-- **Values that differ in spelling only are equal.** -/
theorem Equals.of_respelled {a b : Value} (ha : a.WellFormed) (hb : b.WellFormed)
    (h : Respelled a b) : a.Equals b :=
  equals_iff.2 ⟨ha, hb, canonical_eq_of_respelled ha hb h⟩

end Value

end Logbook
