import Logbook.Query
import Logbook.Json.Writer

/-!
# Issues of a query

What is wrong with a query, and where.  An issue has a path from the top of the query to the
place it speaks of, and a cause; the wording belongs to the cause alone.

* `Step`, `Path.text`: a place, written `$.where.and[1].operator`.
* `Cause.message`: the wording.
* `Issue.under`: the same issue seen from one level above.
* `Issue.summary`: all issues in one line.
-/

namespace Logbook

/-- A step into a value: to a member of a map or to an item of a list. -/
inductive Step where
  | key (k : String)
  | index (i : Nat)
deriving DecidableEq, Repr

/-- The way from the top of a value to a place in it. -/
abbrev Path := List Step

/-- A step as it is written. -/
def Step.text : Step → String
  | key k => "." ++ k
  | index i => "[" ++ toString i ++ "]"

/-- A path as it is written. -/
def Path.text (path : Path) : String := "$" ++ String.join (path.map Step.text)

/-- The value at the end of a path. -/
def Value.resolve? : Path → Value → Option Value
  | [], v => some v
  | .key k :: path, .map ms =>
    match Members.get? k ms with
    | some v => resolve? path v
    | none => none
  | .index i :: path, .list xs =>
    match xs[i]? with
    | some v => resolve? path v
    | none => none
  | _ :: _, _ => none

/-- The shapes that a clause may have. -/
inductive Shape where
  | condition
  | conj
  | disj
  | neg
deriving DecidableEq, Repr

/-- The name of a shape. -/
def Shape.name : Shape → String
  | condition => "condition"
  | conj => "and"
  | disj => "or"
  | neg => "not"

/-- What can be wrong with a query. -/
inductive Cause where
  /-- The query is no map. -/
  | notAQuery (got : Value)
  /-- A query has no such member. -/
  | unknownKey (key : String)
  /-- A string is not the name of a field. -/
  | badName (name : String)
  /-- The name of a field is no string. -/
  | notAName (got : Value)
  /-- A list of names is empty. -/
  | noNames
  /-- Something else stands for a list of names. -/
  | notNames (got : Value)
  /-- A grouping field has a name that the entries of groups use. -/
  | reserved (name : String)
  /-- A clause is no map. -/
  | notAClause (got : Value)
  /-- A clause has none of the shapes. -/
  | shapeless
  /-- A clause has several shapes at once. -/
  | mixed (shapes : List Shape)
  /-- A clause has no such member. -/
  | unknownClauseKey
  /-- Something else stands for a list of clauses. -/
  | notClauses (got : Value)
  /-- A condition lacks a member. -/
  | missing (key : String)
  /-- There is no operator of that name. -/
  | unknownOperator (name : String)
  /-- The name of an operator is no string. -/
  | notAnOperator (got : Value)
  /-- The operand of `in` is no list. -/
  | operandNotAList (got : Value)
  /-- The operand of an operator on texts is no string. -/
  | operandNotAString (op : Operator) (got : Value)
  /-- Something else stands for a list of order keys. -/
  | notOrderKeys (got : Value)
  /-- An order key is neither a name nor a pair. -/
  | notAnOrderKey
  /-- There is no such direction. -/
  | badDirection (got : Value)
  /-- A limit or an offset is no natural number. -/
  | notANatural (got : Value)
  /-- The query cannot be read. -/
  | unreadable

/-- The members of a query, as messages list them. -/
def Cause.queryKeys : List String := ["find", "where", "group-by", "order-by", "limit", "offset"]

/-- The wording of a cause. -/
def Cause.message : Cause → String
  | notAQuery got => "query must be a map, got " ++ got.typeName
  | unknownKey key =>
    "unknown key '" ++ key ++ "', expected one of " ++ ", ".intercalate queryKeys
  | badName name => "'" ++ name ++ "' is not a valid field name"
  | notAName got => "expected a field name, got " ++ got.typeName
  | noNames => "expected a non-empty list of field names"
  | notNames got => "expected a list of field names, got " ++ got.typeName
  | reserved name => "'" ++ name ++ "' is reserved in grouped results"
  | notAClause got => "expected a where-clause map, got " ++ got.typeName
  | shapeless =>
    "expected a condition \x7bfield, operator, value\x7d or one of and/or/not"
  | mixed shapes => "node mixes " ++ " and ".intercalate (shapes.map Shape.name)
  | unknownClauseKey => "unknown key in where-clause"
  | notClauses got => "expected a list of where-clauses, got " ++ got.typeName
  | missing key => "condition is missing '" ++ key ++ "'"
  | unknownOperator name =>
    Operator.unknownMessage name ++ ", expected one of " ++ Operator.vocabulary
  | notAnOperator got => "expected an operator name, got " ++ got.typeName
  | operandNotAList got => "'in' expects a list, got " ++ got.typeName
  | operandNotAString op got => "'" ++ op.name ++ "' expects a string, got " ++ got.typeName
  | notOrderKeys got => "expected a list of order keys, got " ++ got.typeName
  | notAnOrderKey => "expected a field name or a [field, direction] pair"
  | badDirection got => "expected direction \"asc\" or \"desc\", got " ++ got.text
  | notANatural got => "expected a non-negative integer, got " ++ got.text
  | unreadable => "query cannot be read"

/-- Something wrong at a place. -/
structure Issue where
  path : Path
  cause : Cause

namespace Issue

/-- An issue of the value at hand. -/
def here (cause : Cause) : Issue := ⟨[], cause⟩

/-- The issue seen from one level above. -/
def under (step : Step) (issue : Issue) : Issue := ⟨step :: issue.path, issue.cause⟩

@[simp] theorem path_under (step : Step) (issue : Issue) :
    (issue.under step).path = step :: issue.path := rfl

@[simp] theorem cause_under (step : Step) (issue : Issue) :
    (issue.under step).cause = issue.cause := rfl

/-- The wording of an issue without its place. -/
def message (issue : Issue) : String := issue.cause.message

/-- An issue in one line. -/
def text (issue : Issue) : String := issue.path.text ++ ": " ++ issue.message

/-- All issues in one line. -/
def summary (issues : List Issue) : String :=
  "invalid query: " ++ "; ".intercalate (issues.map text)

/-- An issue as a value. -/
def toValue (issue : Issue) : Value :=
  .map [("path", .str issue.path.text), ("message", .str issue.message)]

end Issue

end Logbook
