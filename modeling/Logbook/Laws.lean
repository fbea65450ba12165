import Logbook.Query.Matching

/-!
# Laws at work

Laws of the comparison and of the clauses, each as a test at given values.  A test answers whether
its law holds there.

* `Law.orderedOperators`, `Law.integralDoubles`: laws of the operators on integers.
* `Law.antisymmetric`, `Law.transitive`: laws of the order of sorting.
* `Law.clauseAlgebra`: laws of the clauses on a record.
* `Law.sample`: a value, or none, for each of five tags.
-/

namespace Logbook

/-- The double nearest to an integer. -/
def Double.ofInt? (i : Int) : Option Double := ofDecimal? (decide (i < 0)) ⟨i.natAbs, 0⟩

namespace Law

/-- The operator `gte` is `gt` or `eq`, `lte` is `lt` or `eq`, `lt` is the opposite of `gte`, and
`gt` the opposite of `lte`. -/
def orderedOperators (field operand : Int) : Bool :=
  let holds (op : Operator) := op.holds (some (.num (.int field))) (.num (.int operand))
  holds .gte == (holds .gt || holds .eq) && holds .lte == (holds .lt || holds .eq)
    && holds .lt == !holds .gte && holds .gt == !holds .lte

/-- An integer of 32 bits equals the double of its value. -/
def integralDoubles (i : Int32) : Bool :=
  match Double.ofInt? i.toInt with
  | some x =>
    Value.equal (.num (.int i.toInt)) (.num (.float x))
      && Value.compare? (.num (.int i.toInt)) (.num (.float x)) == some .eq
  | none => false

/-- The order of sorting turns around with its operands. -/
def antisymmetric (a b : Option Value) : Bool :=
  Value.orderOpt a b == (Value.orderOpt b a).swap

/-- What is at most something that is at most a third is at most the third. -/
def transitive (a b c : Option Value) : Bool :=
  !(Value.orderOpt a b != .gt && Value.orderOpt b c != .gt) || Value.orderOpt a c != .gt

/-- The empty conjunction is true, the empty disjunction false, a negated disjunction is the
conjunction of the negations, and a double negation changes nothing. -/
def clauseAlgebra (a b : Clause) (record : Record) : Bool :=
  let holds := Clause.holds record
  holds (.conj []) && !holds (.disj [])
    && holds (.neg (.disj [a, b])) == holds (.conj [.neg a, .neg b])
    && holds (.neg (.neg a)) == holds a

/-- A value of one of the small shapes, or none. -/
def sample (tag : UInt8) (n : Int) (flag : Bool) : Option Value :=
  match tag.toNat % 5 with
  | 0 => none
  | 1 => some .null
  | 2 => some (.bool flag)
  | 3 => some (.num (.int n))
  | _ => some (.str (if flag then "b" else "a"))

end Law

end Logbook
