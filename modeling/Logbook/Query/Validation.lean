import Logbook.Query.Issue
import Logbook.Query.Wire

/-!
# Validation

A query from outside is checked before it is read.  The check goes through the whole value and
lists everything that is wrong, each issue with its place, in the order of the members.

A field name starts with a letter, `_`, `@` or `$`, and goes on with these, digits, `.`, `-`, `/`
and `:`.  A clause has exactly one shape: a condition with its three members, or a single `and`,
`or` or `not`.

* `Field.isName`: the names of fields.
* `Clause.issues`, `Query.issues`: what is wrong with a clause, with a query.
* `Query.parse`: the query, once nothing is wrong with it.
-/

namespace Logbook

/-! ## Field names -/

/-- Holds of the characters that may start a field name. -/
def Field.isStart (c : Char) : Bool :=
  ('a' ≤ c && c ≤ 'z') || ('A' ≤ c && c ≤ 'Z') || c == '_' || c == '@' || c == '$'

/-- Holds of the characters that may go on a field name. -/
def Field.isRest (c : Char) : Bool :=
  isStart c || ('0' ≤ c && c ≤ '9') || c == '.' || c == '-' || c == '/' || c == ':'

/-- Holds of the names that a field may have in a query. -/
def Field.isName (name : String) : Bool :=
  match name.toList with
  | [] => false
  | c :: rest => isStart c && rest.all isRest

/-- What is wrong with a field name. -/
def Field.issues : Value → List Issue
  | .str name => if isName name then [] else [.here (.badName name)]
  | v => [.here (.notAName v)]

/-! ## Lists -/

/-- The issues of the items of a list, each under its index. -/
def Issue.ofItems (issues : Value → List Issue) (start : Nat) : List Value → List Issue
  | [] => []
  | x :: xs => (issues x).map (Issue.under (.index start)) ++ ofItems issues (start + 1) xs

/-- What is wrong with a list of field names. -/
def Field.listIssues : Value → List Issue
  | .list [] => [.here .noNames]
  | .list xs => Issue.ofItems Field.issues 0 xs
  | v => [.here (.notNames v)]

/-- What is wrong with a grouping field apart from its name: the entry of a group has members
of its own. -/
def Field.reservedIssues : Value → List Issue
  | .str name => if name = "count" ∨ name = "entries" then [.here (.reserved name)] else []
  | _ => []

/-- The reserved names in a list of grouping fields. -/
def Field.groupIssues : Value → List Issue
  | .list xs => Issue.ofItems Field.reservedIssues 0 xs
  | _ => []

/-! ## Conditions -/

namespace Condition

/-- The members of a condition. -/
def keys : List String := ["field", "operator", "value"]

/-- The members that a condition lacks. -/
def missingIssues (ms : Members) : List Issue :=
  (keys.filter fun key => !Members.has key ms).map fun key => .here (.missing key)

/-- What is wrong with the field of a condition. -/
def fieldIssues (ms : Members) : List Issue :=
  match Members.get? "field" ms with
  | some v => (Field.issues v).map (Issue.under (.key "field"))
  | none => []

/-- The operator of a condition, if it is one. -/
def operator? (ms : Members) : Option Operator :=
  match Members.get? "operator" ms with
  | some (.str name) => Operator.ofName? name
  | _ => none

/-- What is wrong with the operator of a condition. -/
def operatorIssues (ms : Members) : List Issue :=
  match Members.get? "operator" ms with
  | some (.str name) =>
    match Operator.ofName? name with
    | some _ => []
    | none => [Issue.under (.key "operator") (.here (.unknownOperator name))]
  | some v => [Issue.under (.key "operator") (.here (.notAnOperator v))]
  | none => []

/-- What is wrong with an operand for an operator. -/
def operandCause? : Operator → Value → Option Cause
  | .isIn, .list _ => none
  | .isIn, v => some (.operandNotAList v)
  | .startsWith, .str _ => none
  | .startsWith, v => some (.operandNotAString .startsWith v)
  | .endsWith, .str _ => none
  | .endsWith, v => some (.operandNotAString .endsWith v)
  | _, _ => none

/-- What is wrong with the operand of a condition. -/
def operandIssues (ms : Members) : List Issue :=
  match operator? ms, Members.get? "value" ms with
  | some op, some v =>
    match operandCause? op v with
    | some cause => [Issue.under (.key "value") (.here cause)]
    | none => []
  | _, _ => []

/-- What is wrong with a condition. -/
def issues (ms : Members) : List Issue :=
  missingIssues ms ++ fieldIssues ms ++ operatorIssues ms ++ operandIssues ms

end Condition

/-! ## Clauses -/

namespace Clause

/-- The shapes that a map shows by its keys. -/
def shapes (ms : Members) : List Shape :=
  (if Condition.keys.any fun key => Members.has key ms then [.condition] else [])
    ++ (if Members.has "and" ms then [.conj] else [])
    ++ (if Members.has "or" ms then [.disj] else [])
    ++ (if Members.has "not" ms then [.neg] else [])

/-- The members that no clause has. -/
def unknownKeyIssues (ms : Members) : List Issue :=
  ((Members.keys ms).filter fun key => !(Condition.keys ++ ["and", "or", "not"]).contains key).map
    fun key => Issue.under (.key key) (.here .unknownClauseKey)

mutual

/-- What is wrong with a clause. -/
def issues : Value → List Issue
  | .map ms =>
    match shapes ms with
    | [] => [.here .shapeless]
    | [.condition] => unknownKeyIssues ms ++ Condition.issues ms
    | [.conj] => unknownKeyIssues ms ++ issuesUnderList "and" ms
    | [.disj] => unknownKeyIssues ms ++ issuesUnderList "or" ms
    | [.neg] => unknownKeyIssues ms ++ issuesUnder "not" ms
    | many => [.here (.mixed many)]
  | v => [.here (.notAClause v)]

/-- What is wrong with a list of clauses. -/
def listIssues : Value → List Issue
  | .list xs => itemIssues 0 xs
  | v => [.here (.notClauses v)]

/-- What is wrong with clauses, each under its index. -/
def itemIssues (start : Nat) : List Value → List Issue
  | [] => []
  | x :: xs => (issues x).map (Issue.under (.index start)) ++ itemIssues (start + 1) xs

/-- What is wrong with the list of clauses under a key. -/
def issuesUnderList (key : String) : List (String × Value) → List Issue
  | [] => []
  | (k, v) :: ms =>
    if k = key then (listIssues v).map (Issue.under (.key key)) else issuesUnderList key ms

/-- What is wrong with the clause under a key. -/
def issuesUnder (key : String) : List (String × Value) → List Issue
  | [] => []
  | (k, v) :: ms =>
    if k = key then (issues v).map (Issue.under (.key key)) else issuesUnder key ms

end

end Clause

/-! ## Order keys -/

namespace OrderKey

/-- What is wrong with a direction. -/
def directionIssues : Value → List Issue
  | .str name =>
    match Direction.ofName? name with
    | some _ => []
    | none => [.here (.badDirection (.str name))]
  | v => [.here (.badDirection v)]

/-- What is wrong with an order key. -/
def issues : Value → List Issue
  | .str name => Field.issues (.str name)
  | .list [field, direction] =>
    (Field.issues field).map (Issue.under (.index 0))
      ++ (directionIssues direction).map (Issue.under (.index 1))
  | _ => [.here .notAnOrderKey]

/-- What is wrong with a list of order keys. -/
def listIssues : Value → List Issue
  | .list xs => Issue.ofItems OrderKey.issues 0 xs
  | v => [.here (.notOrderKeys v)]

end OrderKey

/-! ## Queries -/

namespace Query

/-- What is wrong with a limit or an offset. -/
def naturalIssues (v : Value) : List Issue :=
  match v.natural? with
  | some _ => []
  | none => [.here (.notANatural v)]

/-- What is wrong with the value of a member. -/
def memberIssues (key : String) (v : Value) : List Issue :=
  if key = "find" then Field.listIssues v
  else if key = "group-by" then Field.listIssues v ++ Field.groupIssues v
  else if key = "where" then Clause.issues v
  else if key = "order-by" then OrderKey.listIssues v
  else if key = "limit" ∨ key = "offset" then naturalIssues v
  else [.here (.unknownKey key)]

/-- What is wrong with a query. -/
def issues : Value → List Issue
  | .map ms => ms.flatMap fun (key, v) => (memberIssues key v).map (Issue.under (.key key))
  | v => [.here (.notAQuery v)]

/-- Checks a query and reads it. -/
def parse (raw : Value) : Except (List Issue) Query :=
  match issues raw with
  | [] =>
    match ofValue? raw with
    | some q => .ok q
    | none => .error [.here .unreadable]
  | found => .error found

end Query

end Logbook
