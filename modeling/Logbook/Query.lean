import Logbook.Value

/-!
# Queries

A query asks for log records: which to keep, which fields of them, how to group and sort what
is kept, and which page of it to return.  Every part may be left out.

* `Operator`, `Condition`, `Clause`: the tests on a record and their Boolean combinations.
* `Direction`, `OrderKey`: one key of the sort order.
* `Query`, `Answer`: what is asked and what comes of it.
-/

namespace Logbook

/-! ## Conditions -/

/-- What a condition asks of a field and its operand. -/
inductive Operator where
  | eq
  | ne
  | gt
  | gte
  | lt
  | lte
  | isIn
  | contains
  | startsWith
  | endsWith
deriving DecidableEq, Repr

namespace Operator

/-- The operators, in the order in which messages list them. -/
def all : List Operator :=
  [eq, ne, gt, gte, lt, lte, isIn, contains, startsWith, endsWith]

/-- The name of an operator in a query. -/
def name : Operator → String
  | eq => "eq"
  | ne => "ne"
  | gt => "gt"
  | gte => "gte"
  | lt => "lt"
  | lte => "lte"
  | isIn => "in"
  | contains => "contains"
  | startsWith => "starts-with"
  | endsWith => "ends-with"

/-- The operator of a name; names are told apart by case. -/
def ofName? (s : String) : Option Operator := all.find? fun op => op.name = s

theorem ofName?_name (op : Operator) : ofName? op.name = some op := by
  cases op <;> decide

/-- The wording for a name that is no operator. -/
def unknownMessage (name : String) : String := "unknown operator '" ++ name ++ "'"

/-- The names, as messages list them. -/
def vocabulary : String := ", ".intercalate (all.map name)

end Operator

/-- A test of one field. -/
structure Condition where
  field : String
  operator : Operator
  operand : Value
deriving Repr

/-- A filter: conditions joined by conjunction, disjunction and negation. -/
inductive Clause where
  | condition (c : Condition)
  | conj (clauses : List Clause)
  | disj (clauses : List Clause)
  | neg (clause : Clause)
deriving Repr

/-! ## Order keys -/

/-- The direction of a sort key. -/
inductive Direction where
  | asc
  | desc
deriving DecidableEq, Repr

namespace Direction

/-- The name of a direction in a query. -/
def name : Direction → String
  | asc => "asc"
  | desc => "desc"

/-- The direction of a name. -/
def ofName? (s : String) : Option Direction :=
  if s = "asc" then some asc else if s = "desc" then some desc else none

theorem ofName?_name (d : Direction) : ofName? d.name = some d := by
  cases d <;> decide

/-- Turns an ascending order into this direction. -/
def apply : Direction → Ordering → Ordering
  | asc, o => o
  | desc, o => o.swap

end Direction

/-- A field to sort by. -/
structure OrderKey where
  field : String
  direction : Direction
deriving DecidableEq, Repr

/-! ## Queries and answers -/

/-- A query. -/
structure Query where
  /-- The fields to keep. -/
  find : Option (List String)
  /-- The records to keep. -/
  filter : Option Clause
  groupBy : Option (List String)
  orderBy : Option (List OrderKey)
  limit : Option Nat
  offset : Option Nat
deriving Repr

/-- What a query returns: the entries of the page, their number, and the number of records
that the filter let through. -/
structure Answer where
  data : List Value
  count : Nat
  totalCount : Nat
deriving Repr

/-- An answer as a value. -/
def Answer.toValue (a : Answer) : Value :=
  .map [("data", .list a.data), ("count", .ofNat a.count), ("total-count", .ofNat a.totalCount)]

end Logbook
