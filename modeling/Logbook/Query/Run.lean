import Logbook.Query.Matching
import Logbook.Query.Projection
import Logbook.Query.Grouping
import Logbook.Query.Sorting

/-!
# Running a query

The records are filtered, projected, grouped and sorted, in this order, and a page of what comes
out is returned.  The total is counted right after the filter.

* `Query.projected`, `Query.grouped`, `Query.arranged`, `Query.page`: the stages behind the filter,
  each of which may be left out.
* `Query.shape`: everything between filter and page.
* `Query.run`: the answer.
-/

namespace Logbook.Query

/-- The records with the fields that the query asks for. -/
def projected (q : Query) (records : List Record) : List Record :=
  match q.find with
  | some fields => records.map (Record.project fields)
  | none => records

/-- The groups that the query asks for. -/
def grouped (q : Query) (records : List Record) : List Record :=
  match q.groupBy with
  | some fields => Record.group fields records
  | none => records

/-- The entries in the order that the query asks for. -/
def arranged (q : Query) (entries : List Record) : List Record :=
  match q.orderBy with
  | some keys => Record.sort keys entries
  | none => entries

/-- The page that the query asks for, of things of any kind. -/
def page {α : Type} (q : Query) (entries : List α) : List α :=
  let rest := entries.drop (q.offset.getD 0)
  match q.limit with
  | some limit => rest.take limit
  | none => rest

/-- Projects, groups and sorts the records that the filter has let through. -/
def shape (q : Query) (records : List Record) : List Record :=
  q.arranged (q.grouped (q.projected records))

/-- The answer to a query over the records of a store. -/
def run (q : Query) (records : List Record) : Answer :=
  let matched := Clause.select q.filter records
  let data := (q.page (q.shape matched)).map Value.map
  ⟨data, data.length, matched.length⟩

end Logbook.Query
