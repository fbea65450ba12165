import Logbook.Json.Writer
import Logbook.Value.Lookup

/-!
# Grouping

Records are grouped by the values of some fields, a missing field counting as null.  Two records
share a group when their values have the same fingerprint: the compact text of the values once
integral doubles are written as the integers they equal and maps are sorted by key.

* `Value.canonical`, `fingerprint`.
* `Grouping`: the groups while records are put into them, and an index to find the group of a
  record.
* `Record.group`: one entry for each group, in the order of the first members.  An entry holds
  the grouping fields, then the number of members under `count` and the members under
  `entries`.
-/

namespace Logbook

/-! ## Fingerprints -/

/-- The number by which equal numbers are known: an integer, where it equals one. -/
def Number.canonical (n : Number) : Number :=
  match n.exactInteger? with
  | some i => .int i
  | none => n

/-- The members in the order of their keys. -/
def Members.sorted (members : Members) : Members :=
  members.mergeSort fun a b => Ord.compare a.1 b.1 != .gt

namespace Value

mutual

/-- The value by which equal values are known. -/
def canonical : Value → Value
  | num n => num n.canonical
  | list xs => list (canonicalItems xs)
  | map ms => map (Members.sorted (canonicalMembers ms))
  | v => v

/-- Canonical items of a list. -/
def canonicalItems : List Value → List Value
  | [] => []
  | x :: xs => canonical x :: canonicalItems xs

/-- Canonical members of a map, not yet sorted. -/
def canonicalMembers : List (String × Value) → List (String × Value)
  | [] => []
  | (k, v) :: ms => (k, canonical v) :: canonicalMembers ms

end

/-- The text by which equal lists of values are known. -/
def fingerprint (key : List Value) : String := text (list (canonicalItems key))

end Value

/-! ## Groups -/

namespace Record

/-- The values that decide the group of a record. -/
def groupKey (fields : List String) (record : Record) : List Value :=
  fields.map fun field => (record.lookup field).getD .null

/-- What the entry of a group shows of the group: the grouping fields and the number of members. -/
def groupHead (fields : List String) (key : List Value) (count : Nat) : Members :=
  Members.insert "count" (.ofNat count) (Members.ofList (fields.zip key))

/-- The entry of a group, given its key and its members. -/
def groupEntry (fields : List String) (key : List Value) (members : List Record) : Record :=
  Members.insert "entries" (.list (members.map .map)) (groupHead fields key members.length)

end Record

/-- The groups while records are put into them, in the order in which they were opened, each with
its key and its members.  The index has the place of the group of each fingerprint. -/
structure Grouping where
  index : List (String × Nat)
  groups : Array (List Value × Array Record)

namespace Grouping

/-- No group has been opened. -/
def empty : Grouping := ⟨[], #[]⟩

/-- The place of the group of a key, which is opened if there is none. -/
def place (s : Grouping) (key : List Value) : Nat × Grouping :=
  let mark := Value.fingerprint key
  match s.index.lookup mark with
  | some place => (place, s)
  | none => (s.groups.size, ⟨(mark, s.groups.size) :: s.index, s.groups.push (key, #[])⟩)

/-- Puts a record into the group in a place. -/
def put (s : Grouping) (place : Nat) (record : Record) : Grouping :=
  { s with groups := s.groups.modify place fun group => (group.1, group.2.push record) }

/-- Puts a record into its group. -/
def add (fields : List String) (s : Grouping) (record : Record) : Grouping :=
  let found := s.place (record.groupKey fields)
  found.2.put found.1 record

end Grouping

/-- The groups of the records by some fields. -/
def Record.group (fields : List String) (records : List Record) : List Record :=
  (records.foldl (Grouping.add fields) .empty).groups.toList.map fun group =>
    groupEntry fields group.1 group.2.toList

end Logbook
