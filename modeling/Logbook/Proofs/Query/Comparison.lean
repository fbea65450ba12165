import Logbook.Laws
import Logbook.Proofs.Value.Order

/-!
# Laws of comparison

Values are compared in three ways: for equality, by the range operators, and for sorting.  The order
of sorting is total.  The range operators know a part of it.  Two values are comparable when these
operators can tell which comes first, and then sorting agrees with them (`Value.order_of_compare?`),
so the laws of the range operators are those of the order of sorting, wherever values are comparable.

What is left to show is which values are.  A list may hold items without an order, and still it is
comparable with every list that differs from it in front of them.  So comparable values need not be
comparable with a third: `[0, null]` and `[0, true]` are not, though both are comparable with `[1]`.
Going up they are.  A step up leaves the first items as they are or raises one of them, and whichever
of two steps raises an item first, the items before it have been compared.

* `Value.compare?_eq_some_iff`: the range operators know the order of comparable values.
* `Value.Comparable.symm`, `Value.Comparable.trans`: what is comparable with what.
* `Value.Comparable.equal_iff`: comparable values are equal exactly if neither comes first.
* `Operator.ranges_form_partial_order`: the range operators and `eq`.
* `Value.orderOpt_is_total`: sorting.
-/

namespace Logbook

namespace Value

/-! ## Comparable values -/

/-- Holds when the range operators know the order of two values. -/
def Comparable (a b : Value) : Prop := (compare? a b).isSome = true

/-- Holds when the range operators know the order of two lists. -/
def ComparableItems (xs ys : List Value) : Prop := (compareItems? xs ys).isSome = true

/-- **The range operators see a part of the order of sorting.** -/
theorem compare?_eq_some_iff {a b : Value} {o : Ordering} :
    compare? a b = some o ↔ Comparable a b ∧ order a b = o := by
  constructor
  · intro h
    exact ⟨by rw [Comparable, h]; rfl, order_of_compare? h⟩
  · rintro ⟨h, rfl⟩
    obtain ⟨o, ho⟩ := Option.isSome_iff_exists.1 h
    rw [ho, order_of_compare? ho]

/-- Lists are compared further only where their first items tie. -/
theorem comparableItems_cons_iff {x y : Value} {xs ys : List Value} :
    ComparableItems (x :: xs) (y :: ys)
      ↔ Comparable x y ∧ (order x y = .eq → ComparableItems xs ys) := by
  rw [ComparableItems, compareItems?_cons, Comparable]
  rcases h : compare? x y with _ | o
  · simp
  · rw [order_of_compare? h]
    cases o <;> simp [ComparableItems]

/-! ### The other way around -/

theorem comparableItems_symm {xs : List Value}
    (h : ∀ x ∈ xs, ∀ y, Comparable x y → Comparable y x) {ys : List Value}
    (hxy : ComparableItems xs ys) : ComparableItems ys xs := by
  induction xs generalizing ys with
  | nil => cases ys <;> rfl
  | cons x xs ih =>
    rw [List.forall_mem_cons] at h
    cases ys with
    | nil => rfl
    | cons y ys =>
      rw [comparableItems_cons_iff] at hxy ⊢
      refine ⟨h.1 y hxy.1, fun htie => ih h.2 (hxy.2 ?_)⟩
      rw [order_swap, htie]
      rfl

/-- Whether two values are comparable does not depend on which is named first. -/
theorem Comparable.symm {a b : Value} (h : Comparable a b) : Comparable b a := by
  induction a using Value.induction generalizing b with
  | list xs ih =>
    cases b with
    | list ys => exact comparableItems_symm (fun x hx y => ih x hx) h
    | _ => exact absurd h (by simp [Comparable, compare?])
  | _ => cases b <;> first | rfl | exact absurd h (by simp [Comparable, compare?])

/-! ### Going up -/

theorem comparableItems_trans {xs : List Value}
    (h : ∀ x ∈ xs, ∀ y z, Comparable x y → Comparable y z → (order x y).isLE = true →
      (order y z).isLE = true → Comparable x z) {ys zs : List Value}
    (hxy : ComparableItems xs ys) (hyz : ComparableItems ys zs)
    (hle : (orderItems xs ys).isLE = true) (hle' : (orderItems ys zs).isLE = true) :
    ComparableItems xs zs := by
  induction xs generalizing ys zs with
  | nil => cases zs <;> rfl
  | cons x xs ih =>
    rw [List.forall_mem_cons] at h
    cases ys with
    | nil => exact absurd hle (by simp [orderItems])
    | cons y ys =>
      cases zs with
      | nil => rfl
      | cons z zs =>
        rw [comparableItems_cons_iff] at hxy hyz ⊢
        rw [orderItems_cons, Ordering.isLE_then_iff_and] at hle hle'
        refine ⟨h.1 y z hxy.1 hyz.1 hle.1 hle'.1, fun htie => ?_⟩
        -- the first items tie, so neither step has raised them
        rw [composes_order x y z hle.1 hle'.1, Ordering.then_eq_eq] at htie
        refine ih h.2 (hxy.2 htie.1) (hyz.2 htie.2) ?_ ?_
        · exact hle.2.resolve_left (by simp [htie.1])
        · exact hle'.2.resolve_left (by simp [htie.2])

/-- **Comparing composes upwards.** -/
theorem Comparable.trans {a b c : Value} (hab : Comparable a b) (hbc : Comparable b c)
    (hle : (order a b).isLE = true) (hle' : (order b c).isLE = true) : Comparable a c := by
  induction a using Value.induction generalizing b c with
  | list xs ih =>
    cases b with
    | list ys =>
      cases c with
      | list zs =>
        exact comparableItems_trans (fun x hx y z => ih x hx) hab hbc hle hle'
      | _ => exact absurd hbc (by simp [Comparable, compare?])
    | _ => exact absurd hab (by simp [Comparable, compare?])
  | _ => cases b <;> cases c <;> first | rfl | simp [Comparable, compare?] at hab hbc

/-! ### Ties -/

theorem equalItems_iff_of_comparableItems {xs : List Value}
    (h : ∀ x ∈ xs, ∀ y, Comparable x y → (x.equal y = true ↔ order x y = .eq)) {ys : List Value}
    (hxy : ComparableItems xs ys) : equalItems xs ys = true ↔ orderItems xs ys = .eq := by
  induction xs generalizing ys with
  | nil => cases ys <;> simp [equalItems, orderItems]
  | cons x xs ih =>
    rw [List.forall_mem_cons] at h
    cases ys with
    | nil => simp [equalItems, orderItems]
    | cons y ys =>
      rw [comparableItems_cons_iff] at hxy
      rw [equalItems, orderItems_cons, Bool.and_eq_true, Ordering.then_eq_eq, h.1 y hxy.1]
      exact and_congr_right fun htie => ih h.2 (hxy.2 htie)

/-- **Comparable values are equal exactly if neither comes first.** -/
theorem Comparable.equal_iff {a b : Value} (h : Comparable a b) :
    a.equal b = true ↔ order a b = .eq := by
  induction a using Value.induction generalizing b with
  | null => cases b <;> exact absurd h (by simp [Comparable, compare?])
  | bool p =>
    cases b with
    | bool q => rw [equal, order, beq_iff_eq, compare_eq_iff_eq]
    | _ => exact absurd h (by simp [Comparable, compare?])
  | num m =>
    cases b with
    | num n => rw [equal, order, beq_iff_eq]
    | _ => exact absurd h (by simp [Comparable, compare?])
  | str s =>
    cases b with
    | str t => rw [equal, order, beq_iff_eq, Std.LawfulEqOrd.compare_eq_iff_eq]
    | _ => exact absurd h (by simp [Comparable, compare?])
  | list xs ih =>
    cases b with
    | list ys => exact equalItems_iff_of_comparableItems (fun x hx y => ih x hx) h
    | _ => exact absurd h (by simp [Comparable, compare?])
  | map ms ih => cases b <;> exact absurd h (by simp [Comparable, compare?])

end Value

/-! ## The range operators -/

namespace Operator

open Value (Comparable compare? order orderOpt)

/-- The operators that ask for an order. -/
def ranges : List Operator := [gt, gte, lt, lte]

section Holds

variable {a b c : Value}

theorem holds_gt_iff : gt.holds (some a) b = true ↔ Comparable a b ∧ order a b = .gt := by
  show (compare? a b == some .gt) = true ↔ _
  rw [beq_iff_eq, Value.compare?_eq_some_iff]

theorem holds_lt_iff : lt.holds (some a) b = true ↔ Comparable a b ∧ order a b = .lt := by
  show (compare? a b == some .lt) = true ↔ _
  rw [beq_iff_eq, Value.compare?_eq_some_iff]

theorem holds_gte_iff :
    gte.holds (some a) b = true ↔ Comparable a b ∧ (order a b).isGE = true := by
  show (compare? a b == some .gt || compare? a b == some .eq) = true ↔ _
  rw [Bool.or_eq_true, beq_iff_eq, beq_iff_eq, Value.compare?_eq_some_iff,
    Value.compare?_eq_some_iff, ← and_or_left, Ordering.isGE_iff_eq_gt_or_eq_eq]

theorem holds_lte_iff :
    lte.holds (some a) b = true ↔ Comparable a b ∧ (order a b).isLE = true := by
  show (compare? a b == some .lt || compare? a b == some .eq) = true ↔ _
  rw [Bool.or_eq_true, beq_iff_eq, beq_iff_eq, Value.compare?_eq_some_iff,
    Value.compare?_eq_some_iff, ← and_or_left, Ordering.isLE_iff_eq_lt_or_eq_eq]

/-- Values without an order, and missing fields, pass no range operator. -/
theorem holds_of_not_comparable {field : Option Value} {operand : Value}
    (h : ∀ v ∈ field, compare? v operand = none) {op : Operator} (hop : op ∈ ranges) :
    op.holds field operand = false := by
  have hnone : fieldCompare? field operand = none := by
    rw [fieldCompare?, Option.bind_eq_none_iff]
    exact h
  simp only [ranges, List.mem_cons, List.not_mem_nil, or_false] at hop
  rcases hop with rfl | rfl | rfl | rfl <;> rw [holds, hnone] <;> rfl

/-- Of comparable values one comes first, or they are equal; the other operators follow. -/
theorem holds_of_comparable (h : Comparable a b) :
    (∃! op, op ∈ [gt, eq, lt] ∧ op.holds (some a) b = true) ∧
    gte.holds (some a) b = (gt.holds (some a) b || eq.holds (some a) b) ∧
    gte.holds (some a) b = !lt.holds (some a) b ∧
    lte.holds (some a) b = (lt.holds (some a) b || eq.holds (some a) b) ∧
    lte.holds (some a) b = !gt.holds (some a) b := by
  have heq : eq.holds (some a) b = (order a b == .eq) := by
    rw [Bool.eq_iff_iff, beq_iff_eq]
    exact h.equal_iff
  have hgt : gt.holds (some a) b = (order a b == .gt) := by
    rw [Bool.eq_iff_iff, beq_iff_eq, holds_gt_iff, and_iff_right h]
  have hlt : lt.holds (some a) b = (order a b == .lt) := by
    rw [Bool.eq_iff_iff, beq_iff_eq, holds_lt_iff, and_iff_right h]
  have hgte : gte.holds (some a) b = (order a b).isGE := by
    rw [Bool.eq_iff_iff, holds_gte_iff, and_iff_right h]
  have hlte : lte.holds (some a) b = (order a b).isLE := by
    rw [Bool.eq_iff_iff, holds_lte_iff, and_iff_right h]
  rw [hgte, hlte, hgt, hlt, heq]
  refine ⟨?_, ?_⟩
  · simp only [List.mem_cons, List.not_mem_nil, or_false]
    cases ho : order a b with
    | lt => exact ⟨lt, by simp [hlt, ho], by rintro op ⟨rfl | rfl | rfl, hop⟩ <;> simp_all⟩
    | eq => exact ⟨eq, by simp [heq, ho], by rintro op ⟨rfl | rfl | rfl, hop⟩ <;> simp_all⟩
    | gt => exact ⟨gt, by simp [hgt, ho], by rintro op ⟨rfl | rfl | rfl, hop⟩ <;> simp_all⟩
  · cases order a b <;> decide

/-- The law at work holds of all integers. -/
theorem orderedOperators_eq_true (field operand : ℤ) :
    Law.orderedOperators field operand = true := by
  obtain ⟨-, hgte, hnotLt, hlte, hnotGt⟩ :=
    holds_of_comparable (a := .num (.int field)) (b := .num (.int operand)) rfl
  simp only [Law.orderedOperators, Bool.and_eq_true, beq_iff_eq]
  refine ⟨⟨⟨hgte, hlte⟩, ?_⟩, ?_⟩
  · rw [hnotLt, Bool.not_not]
  · rw [hnotGt, Bool.not_not]

theorem holds_gt_comm (a b : Value) : gt.holds (some a) b = lt.holds (some b) a := by
  rw [Bool.eq_iff_iff, holds_gt_iff, holds_lt_iff, Value.order_swap b a, Ordering.swap_eq_lt]
  exact and_congr_left fun _ => ⟨Comparable.symm, Comparable.symm⟩

theorem holds_gte_comm (a b : Value) : gte.holds (some a) b = lte.holds (some b) a := by
  rw [Bool.eq_iff_iff, holds_gte_iff, holds_lte_iff, Value.order_swap b a, Ordering.isLE_swap]
  exact and_congr_left fun _ => ⟨Comparable.symm, Comparable.symm⟩

theorem holds_lte_trans (hab : lte.holds (some a) b = true) (hbc : lte.holds (some b) c = true) :
    lte.holds (some a) c = true := by
  rw [holds_lte_iff] at hab hbc ⊢
  exact ⟨hab.1.trans hbc.1 hab.2 hbc.2, Std.TransCmp.isLE_trans hab.2 hbc.2⟩

theorem holds_lt_of_lt_of_lte (hab : lt.holds (some a) b = true)
    (hbc : lte.holds (some b) c = true) : lt.holds (some a) c = true := by
  rw [holds_lt_iff] at hab ⊢
  rw [holds_lte_iff] at hbc
  have hle : (order a b).isLE = true := by rw [hab.2]; rfl
  exact ⟨hab.1.trans hbc.1 hle hbc.2, Std.TransCmp.lt_of_lt_of_isLE hab.2 hbc.2⟩

end Holds

/-- **The range operators and `eq` form one partial order.**  Where two values have no order, or a
field is missing, no range operator holds.  Otherwise exactly one of `gt`, `eq` and `lt` holds, and
`gte` and `lte` follow from them.  The operators turn around with their operands, and they are
transitive: what is at most something that is at most a third has an order to the third. -/
theorem ranges_form_partial_order :
    (∀ (field : Option Value) (operand : Value), (∀ v ∈ field, compare? v operand = none) →
      ∀ op ∈ ranges, op.holds field operand = false) ∧
    (∀ a b : Value, Comparable a b →
      (∃! op, op ∈ [gt, eq, lt] ∧ op.holds (some a) b = true) ∧
      gte.holds (some a) b = (gt.holds (some a) b || eq.holds (some a) b) ∧
      gte.holds (some a) b = !lt.holds (some a) b ∧
      lte.holds (some a) b = (lt.holds (some a) b || eq.holds (some a) b) ∧
      lte.holds (some a) b = !gt.holds (some a) b) ∧
    (∀ a b : Value, gt.holds (some a) b = lt.holds (some b) a ∧
      gte.holds (some a) b = lte.holds (some b) a) ∧
    (∀ a b c : Value, lt.holds (some a) b = true → lte.holds (some b) c = true →
      Comparable a c ∧ lt.holds (some a) c = true) ∧
    (∀ a b c : Value, lte.holds (some a) b = true → lte.holds (some b) c = true →
      Comparable a c ∧ lte.holds (some a) c = true) ∧
    ∀ field operand : ℤ, Law.orderedOperators field operand = true := by
  refine ⟨?_, ?_, ?_, ?_, ?_, orderedOperators_eq_true⟩
  · intro field operand h op hop
    exact holds_of_not_comparable h hop
  · intro a b h
    exact holds_of_comparable h
  · intro a b
    exact ⟨holds_gt_comm a b, holds_gte_comm a b⟩
  · intro a b c hab hbc
    have hac := holds_lt_of_lt_of_lte hab hbc
    exact ⟨(holds_lt_iff.1 hac).1, hac⟩
  · intro a b c hab hbc
    have hac := holds_lte_trans hab hbc
    exact ⟨(holds_lte_iff.1 hac).1, hac⟩

/-- The list `[[0], null]`. -/
def lowList : Value := .list [.list [.num (.int 0)], .null]

/-- The list `[[1], {}]`. -/
def middleList : Value := .list [.list [.num (.int 1)], .map []]

/-- The list `[[1, 2], true]`. -/
def highList : Value := .list [.list [.num (.int 1), .num (.int 2)], .bool true]

/-- The last items of the lists have no order, but the first ones go up. -/
theorem ranges_form_partial_order_nestedLists :
    Comparable lowList highList ∧ lt.holds (some lowList) highList = true ∧
    gte.holds (some lowList) highList = !lt.holds (some lowList) highList ∧
    gte.holds (some (.list [lowList])) (.list [.list [.list [.num (.int 0)], .bool true]]) = false := by
  obtain ⟨hnone, hsome, -, htrans, -⟩ := ranges_form_partial_order
  obtain ⟨hcomparable, hlt⟩ := htrans lowList middleList highList (by decide) (by decide)
  refine ⟨hcomparable, hlt, (hsome _ _ hcomparable).2.2.1, ?_⟩
  refine hnone _ _ (fun v hv => ?_) gte (by decide)
  rw [← Option.some.inj hv]
  rfl

end Operator

/-! ## Sorting -/

namespace Value

/-- **The order of sorting is a total preorder** of all values, and of missing ones.  It turns around
with its operands, ties everything with itself, and is transitive; so the laws at work hold of all
values. -/
theorem orderOpt_is_total :
    (∀ a b, orderOpt a b = (orderOpt b a).swap) ∧
    (∀ a, orderOpt a a = .eq) ∧
    (∀ a b c, orderOpt a b ≠ .gt → orderOpt b c ≠ .gt → orderOpt a c ≠ .gt) ∧
    (∀ a b, Law.antisymmetric a b = true) ∧
    ∀ a b c, Law.transitive a b c = true := by
  have hswap : ∀ a b, orderOpt a b = (orderOpt b a).swap := by
    intro a b
    exact Std.OrientedCmp.eq_swap
  have htrans : ∀ a b c, orderOpt a b ≠ .gt → orderOpt b c ≠ .gt → orderOpt a c ≠ .gt := by
    intro a b c hab hbc
    refine Ordering.ne_gt_iff_isLE.2 (Std.TransCmp.isLE_trans ?_ (Ordering.ne_gt_iff_isLE.1 hbc))
    exact Ordering.ne_gt_iff_isLE.1 hab
  refine ⟨hswap, ?_, htrans, ?_, ?_⟩
  · intro a
    exact Std.ReflCmp.compare_self
  · intro a b
    rw [Law.antisymmetric, beq_iff_eq]
    exact hswap a b
  · intro a b c
    rw [Law.transitive, Bool.or_eq_true, Bool.not_eq_true', ← Bool.not_eq_true, ← imp_iff_not_or,
      Bool.and_eq_true, bne_iff_ne, bne_iff_ne, bne_iff_ne]
    rintro ⟨hab, hbc⟩
    exact htrans a b c hab hbc

/-- The double `2^53 + 4`. -/
def evenDouble : Double := ⟨false, 4503599627370498, 1075, by decide, by decide, by decide⟩

/-- A list with the integer `2^53 + 5`, and then another item. -/
def oddList (last : Value) : Value := .list [.num (.int 9007199254740997), last]

/-- The first step goes up in a number, which no double is, and the second in the item after it. -/
theorem orderOpt_is_total_oddList :
    orderOpt (some (.list [.num (.float evenDouble), .map [("a", .null)]]))
      (some (oddList (.map []))) ≠ .gt ∧
    orderOpt none (some (oddList .null)) = (orderOpt (some (oddList .null)) none).swap ∧
    Law.transitive (some (oddList (.map []))) none (some (oddList .null)) = true := by
  obtain ⟨hswap, -, htrans, -, hlaw⟩ := orderOpt_is_total
  refine ⟨htrans _ (some (oddList .null)) _ ?_ ?_, hswap _ _, hlaw _ _ _⟩
  · decide +kernel
  · decide +kernel

end Value

end Logbook
