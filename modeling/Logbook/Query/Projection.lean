import Logbook.Value.Lookup

/-!
# Projection

`Record.project` keeps some fields of a record, under the names by which they are asked for and
in the order of asking.  A field that is missing is left out.
-/

namespace Logbook

/-- The record of the given fields that are there. -/
def Record.project (fields : List String) (record : Record) : Record :=
  Members.ofList (fields.filterMap fun field => (record.lookup field).map fun v => (field, v))

end Logbook
