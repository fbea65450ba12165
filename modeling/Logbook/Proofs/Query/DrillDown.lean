import Logbook.Proofs.Query.Grouping
import Logbook.Proofs.Value.Canonical
import Logbook.Query.Matching

/-!
# Drilling down into a group

The entry of a group shows the values that its records have in the grouping fields.  A filter that
asks for these values with `eq`, field by field, finds the records of that group again: no record of
another group passes it, and none of this group is lost, also where a field is missing, a number is
written in another way or the keys of a map stand in another order.

A group is made by comparing fingerprints and the filter compares values, so what carries the proof
is that the two equalities of values agree.

* `Record.drillDown`: the filter.
* `Record.mark_eq_iff`: two records share a group exactly if their fields are equal.
* `Record.select_drillDown`: the filter keeps the records of the group, in their order.
-/

namespace Logbook

namespace Record

/-- The filter that asks for the values that an entry shows in some fields. -/
def drillDown (fields : List String) (entry : Record) : Clause :=
  .conj (fields.map fun field =>
    .condition ⟨field, .eq, (Members.get? field entry).getD .null⟩)

theorem holds_drillDown (fields : List String) (entry record : Record) :
    (drillDown fields entry).holds record = fields.all fun field =>
      ((record.lookup field).getD .null).equal ((Members.get? field entry).getD .null) := by
  rw [drillDown, Clause.holds, Clause.allHold_eq_all, List.all_map]
  rfl

/-! ## Sharing a group -/

/-- The value of a field of a well-formed record, null if there is none, is well formed. -/
theorem wellFormed_getD_lookup {record : Record} (hrecord : (Value.map record).WellFormed)
    (field : String) : ((record.lookup field).getD .null).WellFormed := by
  cases h : record.lookup field with
  | none => exact trivial
  | some v => exact wellFormed_of_lookup hrecord h

/-- **Two records share a group exactly if each grouping field has equal values in both.** -/
theorem mark_eq_iff {a b : Record} (ha : (Value.map a).WellFormed)
    (hb : (Value.map b).WellFormed) (fields : List String) :
    mark fields a = mark fields b ↔ ∀ field ∈ fields,
      ((a.lookup field).getD .null).equal ((b.lookup field).getD .null) = true := by
  have hkey : ∀ {r : Record}, (Value.map r).WellFormed →
      Value.WellFormedItems (groupKey fields r) := by
    intro r hr
    rw [Value.wellFormedItems_iff, groupKey, List.forall_mem_map]
    exact fun field _ => wellFormed_getD_lookup hr field
  rw [mark, mark, Value.fingerprint_eq_iff (hkey ha) (hkey hb), Value.canonicalItems_eq_map,
    Value.canonicalItems_eq_map, groupKey, groupKey, List.map_map, List.map_map, List.map_inj_left]
  refine forall₂_congr fun field _ => ?_
  exact (Value.equal_iff (wellFormed_getD_lookup ha field) (wellFormed_getD_lookup hb field)).symm

/-! ## The entry of a group -/

/-- Every group is that of one of its records. -/
theorem exists_of_mem_group {fields : List String} {records : List Record} {entry : Record}
    (h : entry ∈ group fields records) :
    ∃ r ∈ records, entry = groupEntry fields (groupKey fields r) (sharing fields r records) := by
  rw [group_eq] at h
  obtain ⟨first, hfirst, rfl⟩ := List.mem_map.1 h
  exact ⟨first, mem_of_mem_firsts hfirst, rfl⟩

theorem zip_groupKey (fields : List String) (r : Record) :
    fields.zip (groupKey fields r)
      = fields.map fun field => (field, (r.lookup field).getD .null) := by
  rw [groupKey, List.zip_map_right, ← List.map_id fields, List.zip_map', List.map_map, List.map_id]
  rfl

/-- The values of the grouping fields are shown under their names, unless a name is one that the
entry uses for itself. -/
theorem get?_groupEntry {fields : List String} {field : String} (hmem : field ∈ fields)
    (hcount : field ≠ "count") (hentries : field ≠ "entries") (r : Record)
    (members : List Record) :
    Members.get? field (groupEntry fields (groupKey fields r) members)
      = some ((r.lookup field).getD .null) := by
  have hvalue : ∀ p ∈ fields.zip (groupKey fields r), p.2 = (r.lookup p.1).getD .null := by
    rw [zip_groupKey, List.forall_mem_map]
    exact fun _ _ => rfl
  have hkeys : field ∈ Members.keys (fields.zip (groupKey fields r)) := by
    rw [zip_groupKey]
    exact Members.mem_keys_of_mem (List.mem_map_of_mem hmem)
  rw [groupEntry, groupHead, Members.get?_insert_of_ne hentries.symm,
    Members.get?_insert_of_ne hcount.symm,
    Members.get?_ofList (φ := fun field => (r.lookup field).getD .null) hvalue, if_pos hkeys]

theorem get?_entries_groupEntry (fields : List String) (key : List Value)
    (members : List Record) :
    Members.get? "entries" (groupEntry fields key members) = some (.list (members.map .map)) :=
  Members.get?_insert_self _ _ _

/-- **The filter for the values of a group keeps exactly its records, in their order.**  The entry
shows a value for each grouping field. -/
theorem select_drillDown {fields : List String} {records : List Record} {entry : Record}
    (hrecords : ∀ r ∈ records, (Value.map r).WellFormed)
    (hfields : ∀ field ∈ fields, field ≠ "count" ∧ field ≠ "entries")
    (hentry : entry ∈ group fields records) :
    (∀ field ∈ fields, field ∈ Members.keys entry) ∧
      Members.get? "entries" entry
        = some (.list ((Clause.select (some (drillDown fields entry)) records).map .map)) := by
  obtain ⟨r, hr, rfl⟩ := exists_of_mem_group hentry
  have hget : ∀ field ∈ fields, ∀ members, Members.get? field
      (groupEntry fields (groupKey fields r) members) = some ((r.lookup field).getD .null) :=
    fun field hfield => get?_groupEntry hfield (hfields field hfield).1 (hfields field hfield).2 r
  refine ⟨fun field hfield => Members.mem_keys_iff.2 ⟨_, hget field hfield _⟩, ?_⟩
  rw [get?_entries_groupEntry, Clause.select]
  congr 3
  refine List.filter_congr fun s hs => ?_
  rw [Bool.eq_iff_iff, beq_iff_eq, mark_eq_iff (hrecords s hs) (hrecords r hr),
    holds_drillDown, List.all_eq_true]
  refine forall₂_congr fun field hfield => ?_
  rw [hget field hfield, Option.getD_some]

/-- The double `1.0`. -/
def oneDouble : Double := ⟨false, 4503599627370496, 1022, by decide, by decide, by decide⟩

/-- Records with one number in two spellings, and a record without it. -/
def mixedRecords : List Record :=
  [[("a", .num (.int 1))], [], [("a", .num (.float oneDouble)), ("b", .null)]]

/-- The integer and the double share a group, and the filter for its value keeps both. -/
theorem select_drillDown_mixedRecords : ∃ entry ∈ group ["a"] mixedRecords,
    Members.get? "count" entry = some (.ofNat 2) ∧
      Members.get? "entries" entry = some (.list
        ((Clause.select (some (drillDown ["a"] entry)) mixedRecords).map .map)) := by
  have hint : Value.fingerprint [.num (.int 1)] = "[1]" := by decide +kernel
  have hdouble : Value.fingerprint [.num (.float oneDouble)] = "[1]" := by decide +kernel
  have hnull : Value.fingerprint [.null] = "[null]" := by decide +kernel
  have hgroup : ([("a", .num (.int 1)), ("count", .ofNat 2), ("entries", .list
      [.map [("a", .num (.int 1))], .map [("a", .num (.float oneDouble)), ("b", .null)]])] : Record)
        ∈ group ["a"] mixedRecords := by
    simp [group_eq, mixedRecords, firsts, sharing, mark, groupKey, lookup, Members.get?_cons, hint,
      hdouble, hnull, groupEntry, groupHead, Members.ofList, Members.insert]
  have hwellFormed : ∀ r ∈ mixedRecords, (Value.map r).WellFormed := by
    simp [mixedRecords, Value.WellFormed, Value.WellFormedMembers, Members.keys, Number.InRange,
      Double.wordFloor, Double.wordCeil]
  exact ⟨_, hgroup, rfl, (select_drillDown hwellFormed (by decide) hgroup).2⟩

end Record

end Logbook
