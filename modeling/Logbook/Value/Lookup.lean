import Logbook.Value

/-!
# Field lookup

A field name is looked up as a key of the record first.  A name with dots that is no key is a
path through nested maps, one segment for each map.

* `Field.segments`: the parts of a name between its dots.
* `Record.lookup`: the value of a field.
-/

namespace Logbook

/-- The parts of a text between its dots; a text without a dot is one part. -/
def Field.split : List Char → List (List Char)
  | [] => [[]]
  | c :: rest =>
    if c = '.' then [] :: split rest
    else
      match split rest with
      | [] => [[c]]
      | part :: parts => (c :: part) :: parts

/-- The segments of a field name. -/
def Field.segments (field : String) : List String :=
  (Field.split field.toList).map String.ofList

/-- Follows a path of keys through nested maps. -/
def Value.follow : List String → Value → Option Value
  | [], v => some v
  | key :: path, .map ms =>
    match Members.get? key ms with
    | some v => follow path v
    | none => none
  | _ :: _, _ => none

/-- The value of a field: the member of that name, or else the value at the end of the path
that a dotted name spells. -/
def Record.lookup (record : Record) (field : String) : Option Value :=
  match Members.get? field record with
  | some v => some v
  | none => if '.' ∈ field.toList then Value.follow (Field.segments field) (.map record) else none

end Logbook
