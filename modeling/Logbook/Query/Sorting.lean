import Logbook.Query
import Logbook.Value.Lookup
import Logbook.Value.Order

/-!
# Sorting

`Record.sort` sorts entries by several keys.  A later key decides where the earlier ones tie, and
entries that tie on every key keep their order.
-/

namespace Logbook

/-- The order of two entries by one key. -/
def OrderKey.order (key : OrderKey) (a b : Record) : Ordering :=
  key.direction.apply (Value.orderOpt (a.lookup key.field) (b.lookup key.field))

namespace Record

/-- The order of two entries: the first key on which they differ decides. -/
def orderBy (keys : List OrderKey) (a b : Record) : Ordering :=
  match keys with
  | [] => .eq
  | key :: keys =>
    match key.order a b with
    | .eq => orderBy keys a b
    | o => o

/-- The entries in the order of the keys. -/
def sort (keys : List OrderKey) (entries : List Record) : List Record :=
  entries.mergeSort fun a b => orderBy keys a b != .gt

end Record

end Logbook
