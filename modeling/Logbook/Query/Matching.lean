import Logbook.Query
import Logbook.Value.Lookup
import Logbook.Value.Order

/-!
# Matching records

Whether a record satisfies a clause.  Every test has an answer: values that cannot be compared
make a condition false, and a missing field equals only null and has no order.

* `Operator.holds`: one operator on a field, which may be missing, and an operand.
* `Clause.holds`: a clause on a record.
* `Clause.select`: the records that a filter keeps.
-/

namespace Logbook

/-- Holds when a text stands somewhere inside another. -/
def Text.occursIn (needle : List Char) : List Char → Bool
  | [] => needle.isEmpty
  | c :: rest => needle.isPrefixOf (c :: rest) || occursIn needle rest

namespace Operator

/-- Holds when a field has a value; a missing field has the value null. -/
def fieldEquals (field : Option Value) (operand : Value) : Bool :=
  (field.getD .null).equal operand

/-- The order of a field and an operand, if there is one. -/
def fieldCompare? (field : Option Value) (operand : Value) : Option Ordering :=
  field.bind fun v => v.compare? operand

/-- Holds when a field contains an operand: a text a part of it, a list an item. -/
def fieldContains : Option Value → Value → Bool
  | some (.str s), .str needle => Text.occursIn needle.toList s.toList
  | some (.list items), operand => items.any fun item => item.equal operand
  | _, _ => false

/-- Holds when the operator holds of a field and an operand. -/
def holds (op : Operator) (field : Option Value) (operand : Value) : Bool :=
  match op with
  | eq => fieldEquals field operand
  | ne => !fieldEquals field operand
  | gt => fieldCompare? field operand == some .gt
  | gte => fieldCompare? field operand == some .gt || fieldCompare? field operand == some .eq
  | lt => fieldCompare? field operand == some .lt
  | lte => fieldCompare? field operand == some .lt || fieldCompare? field operand == some .eq
  | isIn =>
    match operand with
    | .list members => members.any (fieldEquals field)
    | _ => false
  | contains => fieldContains field operand
  | startsWith =>
    match field, operand with
    | some (.str s), .str start => start.toList.isPrefixOf s.toList
    | _, _ => false
  | endsWith =>
    match field, operand with
    | some (.str s), .str ending => ending.toList.isSuffixOf s.toList
    | _, _ => false

end Operator

/-- Holds when a record satisfies a condition. -/
def Condition.holds (c : Condition) (record : Record) : Bool :=
  c.operator.holds (record.lookup c.field) c.operand

namespace Clause

mutual

/-- Holds when a record satisfies a clause. -/
def holds (record : Record) : Clause → Bool
  | condition c => c.holds record
  | conj cs => allHold record cs
  | disj cs => someHolds record cs
  | neg c => !holds record c

/-- Holds when a record satisfies every clause. -/
def allHold (record : Record) : List Clause → Bool
  | [] => true
  | c :: cs => holds record c && allHold record cs

/-- Holds when a record satisfies one of the clauses. -/
def someHolds (record : Record) : List Clause → Bool
  | [] => false
  | c :: cs => holds record c || someHolds record cs

end

theorem allHold_eq_all (record : Record) (clauses : List Clause) :
    allHold record clauses = clauses.all (holds record) := by
  induction clauses with
  | nil => rw [allHold, List.all_nil]
  | cons c cs ih => rw [allHold, List.all_cons, ih]

theorem someHolds_eq_any (record : Record) (clauses : List Clause) :
    someHolds record clauses = clauses.any (holds record) := by
  induction clauses with
  | nil => rw [someHolds, List.any_nil]
  | cons c cs ih => rw [someHolds, List.any_cons, ih]

/-- The records that a filter keeps; without one, all of them. -/
def select (filter : Option Clause) (records : List Record) : List Record :=
  match filter with
  | some clause => records.filter fun record => clause.holds record
  | none => records

end Clause

end Logbook
