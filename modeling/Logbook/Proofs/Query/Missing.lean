import Logbook.Proofs.Query.Algebra
import Logbook.Proofs.Query.Groups

/-!
# Missing fields

Log records need not have the same fields.  A field that a record lacks counts as null: filters,
groups and the order of sorting do not tell a record without the field from one that has null there.
Only a projection does, which leaves out what is missing and keeps a null.

To fill a field with null adds a key to the record, and a key may be the first segment of a dotted
name.  It changes none of those look-ups, though.  The field was found neither as a key nor along a
path, so a name that begins with it has led nowhere, and from null it leads nowhere again.

* `Record.withNull`: a field filled with null.
* `Record.lookup_withNull_of_ne`: no other field is found in another way.
* `Operator.holds_none`: an operator on a missing field.
* `Record.missing_counts_as_null`: what can be told of the two records, and what cannot.
-/

namespace Logbook

/-- **An operator answers for a missing field as for null.** -/
theorem Operator.holds_none (op : Operator) (operand : Value) :
    op.holds none operand = op.holds (some .null) operand := by
  cases op <;> cases operand <;> rfl

namespace Record

/-! ## Look-ups -/

/-- The record with null in a field. -/
def withNull (field : String) (record : Record) : Record := Members.insert field .null record

@[simp] theorem lookup_withNull_self (field : String) (record : Record) :
    (withNull field record).lookup field = some .null := by
  rw [lookup_eq, withNull, Members.get?_insert_self, Option.some_or]

theorem get?_withNull_of_ne {field key : String} (h : key ≠ field) (record : Record) :
    Members.get? key (withNull field record) = Members.get? key record :=
  Members.get?_insert_of_ne (Ne.symm h) .null record

section Missing

variable {record : Record} {field : String} (hmissing : record.lookup field = none)
include hmissing

/-- **No other field is found in another way.** -/
theorem lookup_withNull_of_ne {other : String} (hne : other ≠ field) :
    (withNull field record).lookup other = record.lookup other := by
  by_cases hdot : '.' ∈ other.toList
  · obtain ⟨first, next, path, hsegments, -⟩ := Field.exists_segments hdot
    rw [lookup_of_dotted hdot hsegments, lookup_of_dotted hdot hsegments, get?_withNull_of_ne hne]
    by_cases hfirst : first = field
    · -- a path that goes on from null leads nowhere
      rw [lookup_eq, Option.or_eq_none_iff] at hmissing
      rw [hfirst, hmissing.1, withNull, Members.get?_insert_self]
      rfl
    · rw [get?_withNull_of_ne hfirst]
  · rw [lookup_of_not_dotted hdot, lookup_of_not_dotted hdot, get?_withNull_of_ne hne]

/-- Where a missing field counts as null, nothing has changed. -/
theorem getD_lookup_withNull (other : String) :
    ((withNull field record).lookup other).getD .null = (record.lookup other).getD .null := by
  by_cases hne : other = field
  · rw [hne, lookup_withNull_self, hmissing]
    rfl
  · rw [lookup_withNull_of_ne hmissing hne]

/-! ## Filters, groups and sorting -/

theorem condition_holds_withNull (c : Condition) :
    c.holds (withNull field record) = c.holds record := by
  rw [Condition.holds, Condition.holds]
  by_cases hne : c.field = field
  · rw [hne, lookup_withNull_self, hmissing, Operator.holds_none]
  · rw [lookup_withNull_of_ne hmissing hne]

/-- Both records give the same letters to a clause. -/
theorem clause_holds_withNull (c : Clause) : c.holds (withNull field record) = c.holds record := by
  rw [Clause.holds_eq_truth, Clause.holds_eq_truth]
  exact congrArg (c.truth ·) (funext fun d => condition_holds_withNull hmissing d)

theorem groupKey_withNull (fields : List String) :
    groupKey fields (withNull field record) = groupKey fields record := by
  rw [groupKey, groupKey]
  exact List.map_congr_left fun other _ => getD_lookup_withNull hmissing other

theorem orderBy_withNull (keys : List OrderKey) (other : Record) :
    orderBy keys (withNull field record) other = orderBy keys record other := by
  induction keys with
  | nil => rfl
  | cons key keys ih =>
    rw [orderBy_cons, orderBy_cons, ih, OrderKey.order, OrderKey.order, Value.orderOpt,
      Value.orderOpt, getD_lookup_withNull hmissing]

/-- The two records tie, whatever the keys. -/
theorem orderBy_self_withNull (keys : List OrderKey) :
    orderBy keys record (withNull field record) = .eq := by
  rw [← orderBy_withNull hmissing]
  exact @Std.ReflCmp.compare_self _ (orderBy keys) _ _

end Missing

/-! ## A record and the filled record -/

/-- **A missing field counts as null, except in a projection.**  The record and the record with null
in that field pass the same filters, are listed in the same group of any records, tie in every order
of sorting, and have the same place among all other records.  Of the look-ups, only that of the field
itself has changed; and a projection to the field leaves it out of the one and shows null in the
other. -/
theorem missing_counts_as_null {record : Record} {field : String}
    (hmissing : record.lookup field = none) :
    let filled := withNull field record
    (∀ clause : Clause, clause.holds filled = clause.holds record) ∧
    (∀ fields records, record ∈ records → filled ∈ records →
      (∃ entry ∈ group fields records, Lists entry record ∧ Lists entry filled) ∧
      ∀ entry ∈ group fields records, Lists entry record ↔ Lists entry filled) ∧
    (∀ keys, orderBy keys record filled = .eq ∧ ∀ other,
      orderBy keys filled other = orderBy keys record other ∧
      orderBy keys other filled = orderBy keys other record) ∧
    (filled.lookup field = some .null ∧
      ∀ other, other ≠ field → filled.lookup other = record.lookup other) ∧
    ∀ fields, field ∈ fields →
      Members.get? field (project fields record) = none ∧
      Members.get? field (project fields filled) = some .null := by
  intro filled
  refine ⟨clause_holds_withNull hmissing, ?_, ?_, ⟨lookup_withNull_self field record, ?_⟩, ?_⟩
  · intro fields records hrecord hfilled
    have hmark : mark fields record = mark fields filled := by
      rw [mark, mark, groupKey_withNull hmissing]
    obtain ⟨entry, hentry, hlists⟩ := exists_lists hrecord fields
    refine ⟨⟨entry, hentry, hlists, (lists_congr hrecord hfilled hmark hentry).1 hlists⟩, ?_⟩
    intro entry hentry
    exact lists_congr hrecord hfilled hmark hentry
  · intro keys
    have htie := orderBy_self_withNull hmissing keys
    refine ⟨htie, fun other => ⟨orderBy_withNull hmissing keys other, ?_⟩⟩
    exact (Std.TransCmp.congr_right htie).symm
  · intro other hne
    exact lookup_withNull_of_ne hmissing hne
  · intro fields hfield
    rw [get?_project, get?_project, if_pos hfield, if_pos hfield]
    exact ⟨hmissing, lookup_withNull_self field record⟩

/-- A record without a field `a`. -/
def bareRecord : Record := [("b", .str "x")]

/-- Asks whether `a` is null or listed, and nothing is found under `a.b`. -/
def absence : Clause :=
  .conj [.condition ⟨"a", .isIn, .list [.num (.int 0), .null]⟩,
    .neg (.condition ⟨"a.b", .gte, .null⟩)]

/-- The clause for what is absent holds of null too, also where the path goes on. -/
theorem missing_counts_as_null_absence :
    bareRecord.lookup "a" = none ∧ absence.holds (withNull "a" bareRecord) = true ∧
    ∀ keys, orderBy keys bareRecord (withNull "a" bareRecord) = .eq := by
  have hmissing : bareRecord.lookup "a" = none := rfl
  obtain ⟨hholds, -, horder, -⟩ := missing_counts_as_null hmissing
  refine ⟨hmissing, ?_, fun keys => (horder keys).1⟩
  rw [hholds]
  rfl

end Record

end Logbook
