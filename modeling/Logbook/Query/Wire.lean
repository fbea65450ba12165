import Logbook.Query

/-!
# Queries as values

A query travels as a JSON value.  Here it is written as one and read back, without any check of
names: a field may be any string, and members that are not known are passed over.

A clause is read as the first shape that fits: a condition, then `and`, `or` and `not`.  An order
key is a field name, which sorts ascending, or a pair of a name and a direction.  A condition and a
query may also be lists of their parts in order.

* `Clause.toValue`, `Clause.ofValue?`, `OrderKey.toValue`, `OrderKey.ofValue?`.
* `Query.toValue`, `Query.ofValue?`: absent parts are left out, and a null part counts as absent.
-/

namespace Logbook

/-- A word out of a vocabulary: its name, alone or as the only key of a map that holds null. -/
def Value.word? : Value → Option String
  | .str s => some s
  | .map [(s, .null)] => some s
  | _ => none

/-! ## Order keys -/

namespace OrderKey

/-- An order key as a pair. -/
def toValue (key : OrderKey) : Value := .list [.str key.field, .str key.direction.name]

/-- Reads an order key. -/
def ofValue? : Value → Option OrderKey
  | .str field => some ⟨field, .asc⟩
  | .list [.str field, direction] =>
    (direction.word?.bind Direction.ofName?).map fun d => ⟨field, d⟩
  | _ => none

end OrderKey

/-! ## Clauses -/

namespace Condition

/-- A condition as the members of a map. -/
def toMembers (c : Condition) : Members :=
  [("field", .str c.field), ("operator", .str c.operator.name), ("value", c.operand)]

/-- A condition from its field, operator and operand. -/
def ofParts? (field operator operand : Value) : Option Condition :=
  match field with
  | .str field => (operator.word?.bind Operator.ofName?).map fun op => ⟨field, op, operand⟩
  | _ => none

/-- Reads a condition; the three members may stand in any order and among others. -/
def ofMembers? (ms : Members) : Option Condition :=
  match Members.get? "field" ms, Members.get? "operator" ms, Members.get? "value" ms with
  | some field, some operator, some operand => ofParts? field operator operand
  | _, _, _ => none

end Condition

namespace Clause

mutual

/-- A clause as a value. -/
def toValue : Clause → Value
  | condition c => .map c.toMembers
  | conj cs => .map [("and", .list (toValues cs))]
  | disj cs => .map [("or", .list (toValues cs))]
  | neg c => .map [("not", toValue c)]

/-- Clauses as the items of a list. -/
def toValues : List Clause → List Value
  | [] => []
  | c :: cs => toValue c :: toValues cs

end

mutual

/-- Reads a clause as the first shape that fits. -/
def ofValue? : Value → Option Clause
  | .map ms =>
    match Condition.ofMembers? ms with
    | some c => some (condition c)
    | none =>
      match clausesUnder? "and" ms with
      | some cs => some (conj cs)
      | none =>
        match clausesUnder? "or" ms with
        | some cs => some (disj cs)
        | none => (clauseUnder? "not" ms).map neg
  | .list [field, operator, operand] =>
    (Condition.ofParts? field operator operand).map condition
  | _ => none

/-- Reads a list of clauses. -/
def ofList? : Value → Option (List Clause)
  | .list xs => ofItems? xs
  | _ => none

/-- Reads clauses one by one. -/
def ofItems? : List Value → Option (List Clause)
  | [] => some []
  | x :: xs =>
    match ofValue? x with
    | some c => (ofItems? xs).map (c :: ·)
    | none => none

/-- Reads the list of clauses under a key. -/
def clausesUnder? (key : String) : List (String × Value) → Option (List Clause)
  | [] => none
  | (k, v) :: ms => if k = key then ofList? v else clausesUnder? key ms

/-- Reads the clause under a key. -/
def clauseUnder? (key : String) : List (String × Value) → Option Clause
  | [] => none
  | (k, v) :: ms => if k = key then ofValue? v else clauseUnder? key ms

end

end Clause

/-! ## Queries -/

namespace Query

/-- A list of names as a value. -/
def namesToValue (names : List String) : Value := .list (names.map .str)

/-- Reads a list of names. -/
def names? : Value → Option (List String)
  | .list xs => xs.mapM Value.string?
  | _ => none

/-- Reads a list of order keys. -/
def orderKeys? : Value → Option (List OrderKey)
  | .list xs => xs.mapM OrderKey.ofValue?
  | _ => none

/-- The member for a part, if there is one. -/
def part {α : Type} (key : String) (write : α → Value) : Option α → Members
  | some a => [(key, write a)]
  | none => []

/-- Reads a part that is given or not: absent when it is not given or is null. -/
def part? {α : Type} (read : Value → Option α) : Option Value → Option (Option α)
  | none => some none
  | some .null => some none
  | some v => (read v).map some

/-- The names of the parts, in order. -/
def partNames : List String := ["find", "where", "group-by", "order-by", "limit", "offset"]

/-- Reads a query from its parts, which are given by name. -/
def ofParts? (given : String → Option Value) : Option Query := do
  let find ← part? names? (given "find")
  let filter ← part? Clause.ofValue? (given "where")
  let groupBy ← part? names? (given "group-by")
  let orderBy ← part? orderKeys? (given "order-by")
  let limit ← part? Value.natural? (given "limit")
  let offset ← part? Value.natural? (given "offset")
  return ⟨find, filter, groupBy, orderBy, limit, offset⟩

/-- A query as a value. -/
def toValue (q : Query) : Value :=
  .map (part "find" namesToValue q.find
    ++ part "where" Clause.toValue q.filter
    ++ part "group-by" namesToValue q.groupBy
    ++ part "order-by" (fun keys => .list (keys.map OrderKey.toValue)) q.orderBy
    ++ part "limit" Value.ofNat q.limit
    ++ part "offset" Value.ofNat q.offset)

/-- Reads a query without checking it. -/
def ofValue? : Value → Option Query
  | .map ms => ofParts? fun name => Members.get? name ms
  | .list xs =>
    if xs.length ≤ partNames.length then ofParts? fun name => (partNames.zip xs).lookup name
    else none
  | _ => none

end Query

end Logbook
