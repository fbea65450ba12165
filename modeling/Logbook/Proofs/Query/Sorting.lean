import Logbook.Proofs.Value.Order
import Logbook.Query.Matching
import Logbook.Query.Sorting

/-!
# Sorting and the range operators

Entries are sorted by the total order of values, and they are filtered by the range operators, which
leave many pairs of values without an order.  Whoever sorts by a field and then looks for the place
where its values pass a bound relies on the two to agree: the entries below the bound must all stand
in front of those that have reached it, whatever else stands between them.

A range operator that holds orders the value of the field against the bound, and so does sorting
(`Value.order_of_compare?`).  The total order then carries over from one side of the bound to the
other, and the sorted list has no pair of entries against the order.

* `Record.pairwise_sort`, `Record.lt_of_orderBy`: a sorted list goes up.
* `Record.Precede`: the entries of one condition stand before those of another.
* `Record.sort_follows_ranges`: sorting by a field agrees with the range operators on it.
-/

namespace Logbook

/-! ## The order of entries -/

namespace OrderKey

theorem order_asc (field : String) (a b : Record) :
    order ⟨field, .asc⟩ a b = Value.orderOpt (a.lookup field) (b.lookup field) := rfl

/-- Downwards, the entries change places. -/
theorem order_desc (field : String) (a b : Record) :
    order ⟨field, .desc⟩ a b = Value.orderOpt (b.lookup field) (a.lookup field) :=
  (Std.OrientedCmp.eq_swap).symm

instance (key : OrderKey) : Std.TransCmp key.order where
  eq_swap := by
    intro a b
    obtain ⟨field, direction⟩ := key
    cases direction
    · rw [order_asc, order_asc, ← Std.OrientedCmp.eq_swap]
    · rw [order_desc, order_desc, ← Std.OrientedCmp.eq_swap]
  isLE_trans := by
    intro a b c hab hbc
    obtain ⟨field, direction⟩ := key
    cases direction
    · rw [order_asc] at hab hbc ⊢
      exact Std.TransCmp.isLE_trans hab hbc
    · rw [order_desc] at hab hbc ⊢
      exact Std.TransCmp.isLE_trans hbc hab

end OrderKey

namespace Record

theorem orderBy_cons (key : OrderKey) (keys : List OrderKey) (a b : Record) :
    orderBy (key :: keys) a b = (key.order a b).then (orderBy keys a b) := by
  rw [orderBy]
  cases key.order a b <;> rfl

/-- Entries are totally ordered by every list of keys. -/
instance (keys : List OrderKey) : Std.TransCmp (orderBy keys) := by
  induction keys with
  | nil =>
    exact
      { eq_swap := rfl
        isLE_trans := fun _ _ => rfl }
  | cons key keys ih =>
    have hlex : orderBy (key :: keys) = compareLex key.order (orderBy keys) := by
      funext a b
      exact orderBy_cons key keys a b
    rw [hlex]
    infer_instance

/-! ## Sorted lists -/

theorem perm_sort (keys : List OrderKey) (entries : List Record) :
    (sort keys entries).Perm entries := List.mergeSort_perm entries _

/-- No entry of a sorted list is followed by one that is less. -/
theorem pairwise_sort (keys : List OrderKey) (entries : List Record) :
    (sort keys entries).Pairwise fun a b => (orderBy keys a b).isLE = true := by
  unfold sort
  simp only [Members.ne_gt_eq_isLE]
  exact List.pairwise_mergeSort (fun a b c => Std.TransCmp.isLE_trans) Members.isLE_or_isLE entries

/-- **Of two entries of a sorted list the lesser stands first.** -/
theorem lt_of_orderBy {keys : List OrderKey} {entries : List Record} {i j : ℕ}
    (hi : i < (sort keys entries).length) (hj : j < (sort keys entries).length)
    (h : orderBy keys (sort keys entries)[i] (sort keys entries)[j] = .lt) : i < j := by
  rcases lt_trichotomy i j with hlt | rfl | hgt
  · exact hlt
  · rw [@Std.ReflCmp.compare_self _ (orderBy keys)] at h
    exact absurd h (by simp)
  · have hle := List.pairwise_iff_getElem.1 (pairwise_sort keys entries) j i hj hi hgt
    rw [@Std.OrientedCmp.eq_swap _ (orderBy keys), h] at hle
    exact absurd hle (by simp)

end Record

/-! ## Bounds -/

namespace Operator

/-- A field that can be compared with an operand is sorted against it alike. -/
theorem orderOpt_of_fieldCompare? {field : Option Value} {operand : Value} {o : Ordering}
    (h : fieldCompare? field operand = some o) : Value.orderOpt field (some operand) = o := by
  rw [fieldCompare?, Option.bind_eq_some_iff] at h
  obtain ⟨v, rfl, hv⟩ := h
  exact Value.order_of_compare? hv

variable {f g : Option Value} {operand : Value}

/-- What is below a bound is sorted before what has reached it. -/
theorem orderOpt_of_lt_of_gte (hf : Operator.lt.holds f operand = true)
    (hg : Operator.gte.holds g operand = true) : Value.orderOpt f g = .lt := by
  have hlow : Value.orderOpt f (some operand) = .lt := orderOpt_of_fieldCompare? (beq_iff_eq.1 hf)
  have hhigh : (Value.orderOpt (some operand) g).isLE = true := by
    rw [@Std.OrientedCmp.eq_swap _ Value.orderOpt]
    rcases Bool.or_eq_true_iff.1 hg with h | h <;>
      rw [orderOpt_of_fieldCompare? (beq_iff_eq.1 h)] <;> rfl
  exact Std.TransCmp.lt_of_lt_of_isLE hlow hhigh

/-- What is at most a bound is sorted before what is beyond it. -/
theorem orderOpt_of_lte_of_gt (hf : Operator.lte.holds f operand = true)
    (hg : Operator.gt.holds g operand = true) : Value.orderOpt f g = .lt := by
  have hlow : (Value.orderOpt f (some operand)).isLE = true := by
    rcases Bool.or_eq_true_iff.1 hf with h | h <;>
      rw [orderOpt_of_fieldCompare? (beq_iff_eq.1 h)] <;> rfl
  have hhigh : Value.orderOpt (some operand) g = .lt := by
    rw [@Std.OrientedCmp.eq_swap _ Value.orderOpt, orderOpt_of_fieldCompare? (beq_iff_eq.1 hg)]
    rfl
  exact Std.TransCmp.lt_of_isLE_of_lt hlow hhigh

end Operator

namespace Record

/-- Holds when every entry that satisfies the one condition stands before every entry that satisfies
the other. -/
def Precede (entries : List Record) (c d : Condition) : Prop :=
  ∀ (i j : ℕ) (hi : i < entries.length) (hj : j < entries.length),
    c.holds entries[i] = true → d.holds entries[j] = true → i < j

/-- It is enough that the first key tells the entries apart. -/
theorem precede_sort_of_order {c d : Condition} {key : OrderKey} (keys : List OrderKey)
    (entries : List Record)
    (h : ∀ a b : Record, c.holds a = true → d.holds b = true → key.order a b = .lt) :
    Precede (sort (key :: keys) entries) c d := by
  intro i j hi hj hc hd
  refine lt_of_orderBy hi hj ?_
  rw [orderBy_cons, h _ _ hc hd]
  rfl

/-- **Sorting agrees with the range operators.**  Where the operators compare two values, sorting
orders them alike.  So, sorted by a field, the entries below a bound stand before those that have
reached it, and those up to the bound before those beyond it, whatever keys come after the field; and
the other way around when the field is sorted downwards. -/
theorem sort_follows_ranges :
    (∀ a b o, Value.compare? a b = some o → Value.orderOpt (some a) (some b) = o) ∧
    ∀ (entries : List Record) (field : String) (operand : Value) (keys : List OrderKey),
      let up := sort (⟨field, .asc⟩ :: keys) entries
      let down := sort (⟨field, .desc⟩ :: keys) entries
      up.Perm entries ∧ down.Perm entries ∧
      Precede up ⟨field, .lt, operand⟩ ⟨field, .gte, operand⟩ ∧
      Precede up ⟨field, .lte, operand⟩ ⟨field, .gt, operand⟩ ∧
      Precede down ⟨field, .gte, operand⟩ ⟨field, .lt, operand⟩ ∧
      Precede down ⟨field, .gt, operand⟩ ⟨field, .lte, operand⟩ := by
  refine ⟨fun a b o => Value.order_of_compare?, fun entries field operand keys =>
    ⟨perm_sort _ _, perm_sort _ _, ?_, ?_, ?_, ?_⟩⟩
  · exact precede_sort_of_order keys entries fun a b ha hb => Operator.orderOpt_of_lt_of_gte ha hb
  · exact precede_sort_of_order keys entries fun a b ha hb => Operator.orderOpt_of_lte_of_gt ha hb
  · refine precede_sort_of_order keys entries fun a b ha hb => ?_
    rw [OrderKey.order_desc]
    exact Operator.orderOpt_of_lt_of_gte hb ha
  · refine precede_sort_of_order keys entries fun a b ha hb => ?_
    rw [OrderKey.order_desc]
    exact Operator.orderOpt_of_lte_of_gt hb ha

/-- A record with the list `[0, "x"]`. -/
def lowRecord : Record := [("a", .list [.num (.int 0), .str "x"])]

/-- A record with the list `[1, {}]`. -/
def highRecord : Record := [("a", .list [.num (.int 1), .map []])]

/-- The list `[0, "x"]` is below the bound `[1]` and `[1, {}]` beyond it, so the one comes first. -/
theorem sort_follows_ranges_mixedLists :
    Value.orderOpt (highRecord.lookup "a") (some (.list [.num (.int 1)])) = .gt ∧
    ∃ i j : ℕ, i < j ∧ (sort [⟨"a", .asc⟩] [highRecord, [], lowRecord])[i]? = some lowRecord ∧
      (sort [⟨"a", .asc⟩] [highRecord, [], lowRecord])[j]? = some highRecord := by
  obtain ⟨hcompare, hsort⟩ := sort_follows_ranges
  obtain ⟨hperm, -, hprecede, -⟩ :=
    hsort [highRecord, [], lowRecord] "a" (.list [.num (.int 1)]) []
  obtain ⟨i, hi, hlow⟩ := List.getElem_of_mem (hperm.mem_iff.2 (by simp : lowRecord ∈ _))
  obtain ⟨j, hj, hhigh⟩ := List.getElem_of_mem (hperm.mem_iff.2 (by simp : highRecord ∈ _))
  refine ⟨hcompare _ _ _ rfl, i, j, hprecede i j hi hj ?_ ?_, ?_, ?_⟩
  · rw [hlow]
    rfl
  · rw [hhigh]
    rfl
  · rw [List.getElem?_eq_getElem hi, hlow]
  · rw [List.getElem?_eq_getElem hj, hhigh]

end Record

end Logbook
