import Logbook.Proofs.Number.Order

/-!
# The order of sorting

Values of every kind are sorted, and the order is total: the kinds come one after the other, and
within a kind numbers, texts and truth values have their own order, lists are ordered by the first
items that differ, and maps by the first members that do.  The range operators know less.  They
compare values of one kind only, and no maps; a list with an item that cannot be compared has no
order to another list, unless a difference in front of that item decides.

Where the range operators compare two values, sorting agrees with them.  Transitivity is proved in
the form `order a c = (order a b).then (order b c)`, for `b` not before `a` and `c` not before `b`:
it says which of the two steps makes the order strict, and so passes through lists item by item.

* `Value.induction`: what holds of all values.
* `Value.order_swap`, `Value.composes_order`: the order is total.
* `Value.order_of_compare?`: it extends the order of the range operators.
-/

namespace Logbook.Value

/-! ## Induction -/

/-- What holds of a list when it holds of the items, and of a map when it holds of the values in it,
holds of all values. -/
@[elab_as_elim]
theorem induction {P : Value → Prop} (null : P .null) (bool : ∀ b, P (.bool b))
    (num : ∀ n, P (.num n)) (str : ∀ s, P (.str s))
    (list : ∀ xs, (∀ x ∈ xs, P x) → P (.list xs))
    (map : ∀ ms : Members, (∀ m ∈ ms, P m.2) → P (.map ms)) : ∀ v, P v
  | .null => null
  | .bool b => bool b
  | .num n => num n
  | .str s => str s
  | .list xs => list xs fun x hx =>
    have := List.sizeOf_lt_of_mem hx
    induction null bool num str list map x
  | .map ms => map ms fun m hm =>
    have := List.sizeOf_lt_of_mem hm
    have : sizeOf m.2 < sizeOf m := by
      obtain ⟨k, v⟩ := m
      simp only [Prod.mk.sizeOf_spec]
      omega
    induction null bool num str list map m.2
termination_by v => sizeOf v

/-! ## Kinds -/

/-- Values of different kinds are ordered by kind. -/
theorem order_of_rank_ne {a b : Value} (h : a.rank ≠ b.rank) :
    order a b = Ord.compare a.rank b.rank := by
  cases a <;> cases b <;> first | rfl | exact absurd rfl h

theorem rank_le_of_isLE {a b : Value} (h : (order a b).isLE = true) : a.rank ≤ b.rank := by
  by_contra hlt
  rw [order_of_rank_ne (by omega), compare_gt_iff_gt.2 (by omega)] at h
  exact absurd h (by simp)

theorem order_of_rank_lt {a b : Value} (h : a.rank < b.rank) : order a b = .lt := by
  rw [order_of_rank_ne (by omega), compare_lt_iff_lt.2 h]

theorem orderItems_cons (x y : Value) (xs ys : List Value) :
    orderItems (x :: xs) (y :: ys) = (order x y).then (orderItems xs ys) := by
  rw [orderItems]
  cases order x y <;> rfl

theorem orderMembers_cons (m n : String × Value) (ms ns : Members) :
    orderMembers (m :: ms) (n :: ns)
      = ((Ord.compare m.1 n.1).then (order m.2 n.2)).then (orderMembers ms ns) := by
  rw [orderMembers]
  cases Ord.compare m.1 n.1 <;> cases order m.2 n.2 <;> rfl

/-! ## Turning the order around -/

theorem orderItems_swap {xs : List Value} (h : ∀ x ∈ xs, ∀ y, order x y = (order y x).swap)
    (ys : List Value) : orderItems xs ys = (orderItems ys xs).swap := by
  induction xs generalizing ys with
  | nil => cases ys <;> rfl
  | cons x xs ih =>
    rw [List.forall_mem_cons] at h
    cases ys with
    | nil => rfl
    | cons y ys => rw [orderItems_cons, orderItems_cons, Ordering.swap_then, ← h.1, ← ih h.2]

theorem orderMembers_swap {ms : Members} (h : ∀ m ∈ ms, ∀ y, order m.2 y = (order y m.2).swap)
    (ns : Members) : orderMembers ms ns = (orderMembers ns ms).swap := by
  induction ms generalizing ns with
  | nil => cases ns <;> rfl
  | cons m ms ih =>
    rw [List.forall_mem_cons] at h
    cases ns with
    | nil => rfl
    | cons n ns =>
      rw [orderMembers_cons, orderMembers_cons, Ordering.swap_then, Ordering.swap_then, ← h.1,
        ← ih h.2, ← Std.OrientedOrd.eq_swap]

/-- The order turns around with its operands. -/
theorem order_swap (a b : Value) : order a b = (order b a).swap := by
  induction a using Value.induction generalizing b with
  | null => cases b <;> rfl
  | bool p => cases b <;> first | rfl | exact Std.OrientedOrd.eq_swap
  | num m => cases b <;> first | rfl | exact @Std.OrientedCmp.eq_swap _ Number.compare _ _ _
  | str s => cases b <;> first | rfl | exact Std.OrientedOrd.eq_swap
  | list xs ih => cases b <;> first | rfl | exact orderItems_swap ih _
  | map ms ih => cases b <;> first | rfl | exact orderMembers_swap ih _

/-! ## Going on in the order -/

/-- Two steps that do not go back: the first strict one of them decides. -/
def Composes {α : Type} (cmp : α → α → Ordering) (a : α) : Prop :=
  ∀ b c, (cmp a b).isLE = true → (cmp b c).isLE = true → cmp a c = (cmp a b).then (cmp b c)

theorem composes_of_transCmp {α : Type} (cmp : α → α → Ordering) [Std.TransCmp cmp] (a : α) :
    Composes cmp a := by
  intro b c hab hbc
  rcases Ordering.isLE_iff_eq_lt_or_eq_eq.1 hab with hlt | heq
  · rw [hlt, Std.TransCmp.lt_of_lt_of_isLE hlt hbc]
    rfl
  · rw [heq, Std.TransCmp.congr_left heq]
    rfl

/-- What composes in two places composes in the first of them that differs. -/
theorem then_trans {o₁ o₂ o p₁ p₂ p : Ordering} (h₁ : (o₁.then p₁).isLE = true)
    (h₂ : (o₂.then p₂).isLE = true)
    (ho : o₁.isLE = true → o₂.isLE = true → o = o₁.then o₂)
    (hp : p₁.isLE = true → p₂.isLE = true → p = p₁.then p₂) :
    o.then p = (o₁.then p₁).then (o₂.then p₂) := by
  cases o₁ <;> cases o₂ <;> cases p₁ <;> simp_all

theorem composes_orderItems {xs : List Value} (h : ∀ x ∈ xs, Composes order x) :
    Composes orderItems xs := by
  induction xs with
  | nil =>
    intro ys zs hab hbc
    cases ys with
    | nil => rfl
    | cons y ys => cases zs <;> first | rfl | exact absurd hbc (by simp [orderItems])
  | cons x xs ih =>
    intro ys zs hab hbc
    rw [List.forall_mem_cons] at h
    cases ys with
    | nil => exact absurd hab (by simp [orderItems])
    | cons y ys =>
      cases zs with
      | nil => exact absurd hbc (by simp [orderItems])
      | cons z zs =>
        rw [orderItems_cons] at hab hbc
        rw [orderItems_cons, orderItems_cons, orderItems_cons]
        exact then_trans hab hbc (h.1 y z) (ih h.2 ys zs)

theorem composes_orderMembers {ms : Members} (h : ∀ m ∈ ms, Composes order m.2) :
    Composes orderMembers ms := by
  induction ms with
  | nil =>
    intro ns ps hab hbc
    cases ns with
    | nil => rfl
    | cons n ns => cases ps <;> first | rfl | exact absurd hbc (by simp [orderMembers])
  | cons m ms ih =>
    intro ns ps hab hbc
    rw [List.forall_mem_cons] at h
    cases ns with
    | nil => exact absurd hab (by simp [orderMembers])
    | cons n ns =>
      cases ps with
      | nil => exact absurd hbc (by simp [orderMembers])
      | cons p ps =>
        rw [orderMembers_cons] at hab hbc
        rw [orderMembers_cons, orderMembers_cons, orderMembers_cons]
        refine then_trans hab hbc (fun hmn hnp => ?_) (ih h.2 ns ps)
        exact then_trans hmn hnp (composes_of_transCmp Ord.compare m.1 n.1 p.1) (h.1 n.2 p.2)

/-- A step to another kind is strict, so that only steps within a kind are left to look at. -/
theorem composes_of_same_kind {a : Value}
    (h : ∀ b c, a.rank = b.rank → b.rank = c.rank → (order a b).isLE = true →
      (order b c).isLE = true → order a c = (order a b).then (order b c)) : Composes order a := by
  intro b c hab hbc
  rcases (rank_le_of_isLE hab).lt_or_eq with hlt | hkind
  · rw [order_of_rank_lt hlt, order_of_rank_lt (hlt.trans_le (rank_le_of_isLE hbc))]
    rfl
  rcases (rank_le_of_isLE hbc).lt_or_eq with hlt | hkind'
  · rw [order_of_rank_lt hlt, order_of_rank_lt (hkind.trans_lt hlt)]
    rcases Ordering.isLE_iff_eq_lt_or_eq_eq.1 hab with hord | hord <;> rw [hord] <;> rfl
  · exact h b c hkind hkind' hab hbc

/-- **The order of values composes**, at any depth. -/
theorem composes_order (a : Value) : Composes order a := by
  induction a using Value.induction <;>
    refine composes_of_same_kind fun b c hkind hkind' hab hbc => ?_
  case null =>
    cases b with
    | null => cases c <;> rfl
    | _ => exact absurd hkind (by simp [rank])
  case bool p =>
    cases b with
    | bool q =>
      cases c with
      | bool r => exact composes_of_transCmp Ord.compare p q r hab hbc
      | _ => exact absurd hkind' (by simp [rank])
    | _ => exact absurd hkind (by simp [rank])
  case num m =>
    cases b with
    | num n =>
      cases c with
      | num k => exact composes_of_transCmp Number.compare m n k hab hbc
      | _ => exact absurd hkind' (by simp [rank])
    | _ => exact absurd hkind (by simp [rank])
  case str s =>
    cases b with
    | str t =>
      cases c with
      | str u => exact composes_of_transCmp Ord.compare s t u hab hbc
      | _ => exact absurd hkind' (by simp [rank])
    | _ => exact absurd hkind (by simp [rank])
  case list xs ih =>
    cases b with
    | list ys =>
      cases c with
      | list zs => exact composes_orderItems ih ys zs hab hbc
      | _ => exact absurd hkind' (by simp [rank])
    | _ => exact absurd hkind (by simp [rank])
  case map ms ih =>
    cases b with
    | map ns =>
      cases c with
      | map ps => exact composes_orderMembers ih ns ps hab hbc
      | _ => exact absurd hkind' (by simp [rank])
    | _ => exact absurd hkind (by simp [rank])

/-- **The order of sorting is total.** -/
instance : Std.TransCmp Value.order where
  eq_swap := order_swap _ _
  isLE_trans := by
    intro a b c hab hbc
    rw [composes_order a b c hab hbc, Ordering.isLE_then_iff_or]
    rcases Ordering.isLE_iff_eq_lt_or_eq_eq.1 hab with h | h
    · exact Or.inl h
    · exact Or.inr ⟨h, hbc⟩

/-- A missing value takes part in the order as null does. -/
instance : Std.TransCmp Value.orderOpt where
  eq_swap := order_swap _ _
  isLE_trans := by
    intro a b c
    exact @Std.TransCmp.isLE_trans _ order _ _ _ _

/-! ## The order of the range operators -/

theorem compareItems?_cons (x y : Value) (xs ys : List Value) :
    compareItems? (x :: xs) (y :: ys)
      = (compare? x y).bind fun o => if o = .eq then compareItems? xs ys else some o := by
  rw [compareItems?]
  rcases compare? x y with _ | o
  · rfl
  · cases o <;> rfl

theorem orderItems_of_compareItems? {xs : List Value}
    (h : ∀ x ∈ xs, ∀ y o, compare? x y = some o → order x y = o) {ys : List Value} {o : Ordering}
    (ho : compareItems? xs ys = some o) : orderItems xs ys = o := by
  induction xs generalizing ys with
  | nil => cases ys <;> exact Option.some.inj ho
  | cons x xs ih =>
    rw [List.forall_mem_cons] at h
    cases ys with
    | nil => exact Option.some.inj ho
    | cons y ys =>
      rw [compareItems?_cons, Option.bind_eq_some_iff] at ho
      obtain ⟨p, hp, ho⟩ := ho
      rw [orderItems_cons, h.1 y p hp]
      split_ifs at ho with heq
      · rw [heq, ih h.2 ho]
        rfl
      · obtain rfl := Option.some.inj ho
        cases p <;> first | rfl | exact absurd rfl heq

/-- **Where the range operators compare two values, sorting orders them alike.** -/
theorem order_of_compare? {a b : Value} {o : Ordering} (h : compare? a b = some o) :
    order a b = o := by
  induction a using Value.induction generalizing b o with
  | null => cases b <;> exact absurd h (by simp [compare?])
  | bool p => cases b <;> first | exact Option.some.inj h | exact absurd h (by simp [compare?])
  | num m => cases b <;> first | exact Option.some.inj h | exact absurd h (by simp [compare?])
  | str s => cases b <;> first | exact Option.some.inj h | exact absurd h (by simp [compare?])
  | list xs ih =>
    cases b with
    | list ys => exact orderItems_of_compareItems? (fun x hx y o => ih x hx) h
    | _ => exact absurd h (by simp [compare?])
  | map ms ih => cases b <;> exact absurd h (by simp [compare?])

end Logbook.Value
