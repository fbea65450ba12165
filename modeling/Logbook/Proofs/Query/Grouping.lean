import Logbook.Query.Grouping
import Mathlib.Data.List.Basic
import Mathlib.Data.List.Induction

/-!
# The loop of grouping

Groups are made in one pass.  For each record the index is asked for the place of its group, a new
group is opened behind the others if there is none, and the record goes to the end of the group.  It
is told here what comes out without following the loop: the records that come first in their groups
lead, in their order, and each brings along all the records that share its fingerprint.

The index and the groups must not get out of step.  After some records the index has the place of
each group under the mark of its first record, and nothing else, so that a place from the index is
never one without a group.  A step has two parts, and between them the records with a group are one
ahead of the records that have been put into theirs, which is why the invariant tells the two apart.

* `Record.mark`: what the group of a record is known by.
* `Record.firsts`, `Record.sharing`: the records that come first, and those that go with them.
* `Grouping.Tracks`: what the loop has reached; `Grouping.Tracks.place`,
  `Grouping.Tracks.put`, `Grouping.Tracks.add`: one step.
* `Grouping.tracks_foldl`: all steps.
* `Record.group_eq`: the groups.
-/

namespace Logbook

theorem getElem?_concat_eq_some_iff {α : Type} {xs : List α} {x y : α} {i : ℕ} :
    (xs ++ [x])[i]? = some y ↔ xs[i]? = some y ∨ i = xs.length ∧ x = y := by
  grind

namespace Record

variable {fields : List String}

/-- What the group of a record is known by. -/
def mark (fields : List String) (record : Record) : String :=
  Value.fingerprint (groupKey fields record)

/-- The records that come first in their groups. -/
def firsts (fields : List String) : List Record → List Record
  | [] => []
  | r :: rs => r :: (firsts fields rs).filter fun s => mark fields s != mark fields r

/-- The records that share the group of a record. -/
def sharing (fields : List String) (record : Record) (records : List Record) : List Record :=
  records.filter fun r => mark fields r == mark fields record

/-! ## The records that come first -/

theorem mem_of_mem_firsts {r : Record} {records : List Record} (h : r ∈ firsts fields records) :
    r ∈ records := by
  induction records with
  | nil => exact absurd h List.not_mem_nil
  | cons s rs ih =>
    rcases List.mem_cons.1 h with rfl | h
    · exact List.mem_cons_self
    · exact List.mem_cons_of_mem _ (ih (List.mem_filter.1 h).1)

/-- For every record there is one that comes first in its group. -/
theorem exists_first (fields : List String) {r : Record} {records : List Record} (h : r ∈ records) :
    ∃ first ∈ firsts fields records, mark fields first = mark fields r := by
  induction records with
  | nil => exact absurd h List.not_mem_nil
  | cons s rs ih =>
    by_cases hmark : mark fields s = mark fields r
    · exact ⟨s, List.mem_cons_self, hmark⟩
    · have hr : r ∈ rs := (List.mem_cons.1 h).resolve_left fun heq => hmark (congrArg _ heq.symm)
      obtain ⟨first, hfirst, hsame⟩ := ih hr
      refine ⟨first, List.mem_cons_of_mem _ (List.mem_filter.2 ⟨hfirst, ?_⟩), hsame⟩
      rw [bne_iff_ne, hsame]
      exact Ne.symm hmark

/-- Behind others a record comes first if none of them has its mark. -/
theorem firsts_concat (records : List Record) (record : Record) :
    firsts fields (records ++ [record]) = firsts fields records ++
      if ∃ r ∈ records, mark fields r = mark fields record then [] else [record] := by
  induction records with
  | nil => simp [firsts]
  | cons r rs ih =>
    rw [List.cons_append, firsts, firsts, ih, List.filter_append, List.cons_append]
    simp only [List.exists_mem_cons_iff]
    congr 2
    by_cases hmark : mark fields r = mark fields record
    · -- the first of all has the mark, so what comes behind the others is left out
      rw [if_pos (Or.inl hmark)]
      split <;> simp [hmark]
    · simp only [hmark, false_or]
      split
      · rfl
      · simpa using Ne.symm hmark

theorem mem_sharing_iff {first r : Record} {records : List Record} :
    r ∈ sharing fields first records ↔ r ∈ records ∧ mark fields r = mark fields first := by
  rw [sharing, List.mem_filter, beq_iff_eq]

theorem sharing_concat (first record : Record) (records : List Record) :
    sharing fields first (records ++ [record]) = sharing fields first records ++
      if mark fields record = mark fields first then [record] else [] := by
  rw [sharing, List.filter_append, sharing]
  congr 1
  by_cases hmark : mark fields record = mark fields first <;> simp [hmark]

/-- Without a record of its mark, nothing is shared with a record. -/
theorem sharing_eq_nil {record : Record} {records : List Record}
    (h : ¬∃ r ∈ records, mark fields r = mark fields record) :
    sharing fields record records = [] := by
  rw [List.eq_nil_iff_forall_not_mem]
  intro r hr
  exact h ⟨r, mem_sharing_iff.1 hr⟩

end Record

namespace Grouping

open Record

/-! ## What a step does -/

theorem place_of_lookup_eq_some {s : Grouping} {key : List Value} {place : ℕ}
    (h : s.index.lookup (Value.fingerprint key) = some place) : s.place key = (place, s) := by
  simp only [Grouping.place, h]

theorem place_of_lookup_eq_none {s : Grouping} {key : List Value}
    (h : s.index.lookup (Value.fingerprint key) = none) : s.place key = (s.groups.size,
      ⟨(Value.fingerprint key, s.groups.size) :: s.index, s.groups.push (key, #[])⟩) := by
  simp only [Grouping.place, h]

/-! ## What the loop has reached -/

/-- Holds of the state in which the groups of some records have been opened, and some have been put
into them: the index has the place of each fingerprint, and the groups stand in the order in which
their first records came. -/
structure Tracks (fields : List String) (opened members : List Record) (s : Grouping) : Prop where
  lookup_eq_some_iff (text : String) (place : ℕ) : s.index.lookup text = some place ↔
    ∃ first, (firsts fields opened)[place]? = some first ∧ mark fields first = text
  groups_eq : s.groups.toList = (firsts fields opened).map fun first =>
    (groupKey fields first, (sharing fields first members).toArray)

/-- Before the first record there is no group. -/
theorem tracks_empty (fields : List String) : Tracks fields [] [] .empty where
  lookup_eq_some_iff text place := by simp [empty, firsts]
  groups_eq := rfl

namespace Tracks

variable {fields : List String} {opened members records : List Record} {s : Grouping}

theorem size_groups (h : Tracks fields opened members s) :
    s.groups.size = (firsts fields opened).length := by
  rw [← Array.length_toList, h.groups_eq, List.length_map]

/-- The index knows the marks of the records that have a group. -/
theorem lookup_eq_none_iff (h : Tracks fields opened members s) {text : String} :
    s.index.lookup text = none ↔ ¬∃ r ∈ opened, mark fields r = text := by
  constructor
  · rintro hnone ⟨r, hr, rfl⟩
    obtain ⟨first, hfirst, hmark⟩ := exists_first fields hr
    obtain ⟨place, hplace⟩ := List.getElem?_of_mem hfirst
    have hfound := (h.lookup_eq_some_iff _ place).2 ⟨first, hplace, hmark⟩
    exact absurd (hnone.symm.trans hfound) (by simp)
  · intro hnew
    rw [Option.eq_none_iff_forall_ne_some]
    intro place hplace
    obtain ⟨first, hfirst, hmark⟩ := (h.lookup_eq_some_iff text place).1 hplace
    exact hnew ⟨first, mem_of_mem_firsts (List.mem_of_getElem? hfirst), hmark⟩

/-- A new group comes behind the others, and the index has its place. -/
theorem opening (h : Tracks fields records records s) {record : Record}
    (hnew : ¬∃ r ∈ records, mark fields r = mark fields record) :
    Tracks fields (records ++ [record]) records
      ⟨(mark fields record, s.groups.size) :: s.index,
        s.groups.push (groupKey fields record, #[])⟩ := by
  have hfirsts : firsts fields (records ++ [record]) = firsts fields records ++ [record] := by
    rw [firsts_concat, if_neg hnew]
  refine ⟨fun text place => ?_, ?_⟩
  · simp only [hfirsts, getElem?_concat_eq_some_iff, or_and_right, exists_or,
      ← h.lookup_eq_some_iff]
    by_cases htext : text = mark fields record
    · -- the mark is new, so nothing but the new place is found under it
      have hnone := h.lookup_eq_none_iff.2 hnew
      rw [htext, List.lookup_cons_self, hnone]
      simp [h.size_groups, eq_comm]
    · rw [List.lookup_cons, beq_false_of_ne htext]
      simp [Ne.symm htext]
  · rw [hfirsts, Array.toList_push, h.groups_eq, List.map_append, List.map_singleton,
      sharing_eq_nil hnew]

/-- **The first part of a step.**  The record has a group now, and the place of this group is
found. -/
theorem place (h : Tracks fields records records s) (record : Record) :
    Tracks fields (records ++ [record]) records (s.place (groupKey fields record)).2 ∧
      (s.place (groupKey fields record)).2.index.lookup (mark fields record)
        = some (s.place (groupKey fields record)).1 := by
  cases hlookup : s.index.lookup (mark fields record) with
  | none =>
    rw [place_of_lookup_eq_none hlookup]
    exact ⟨h.opening (h.lookup_eq_none_iff.1 hlookup), List.lookup_cons_self⟩
  | some place =>
    have hfirsts : firsts fields (records ++ [record]) = firsts fields records := by
      have hknown : ∃ r ∈ records, mark fields r = mark fields record := by
        by_contra hnew
        exact absurd (hlookup.symm.trans (h.lookup_eq_none_iff.2 hnew)) (by simp)
      rw [firsts_concat, if_pos hknown, List.append_nil]
    rw [place_of_lookup_eq_some hlookup]
    refine ⟨⟨?_, ?_⟩, hlookup⟩
    · rw [hfirsts]
      exact h.lookup_eq_some_iff
    · rw [hfirsts]
      exact h.groups_eq

/-- **The second part of a step.**  The record goes to the end of its group, and to no other. -/
theorem put (h : Tracks fields opened members s) {record : Record} {place : ℕ}
    (hplace : s.index.lookup (mark fields record) = some place) :
    Tracks fields opened (members ++ [record]) (s.put place record) := by
  obtain ⟨first, hfirst, hmark⟩ := (h.lookup_eq_some_iff _ place).1 hplace
  refine ⟨h.lookup_eq_some_iff, List.ext_getElem? fun i => ?_⟩
  rw [Grouping.put, Array.toList_modify, List.getElem?_modify, h.groups_eq, List.getElem?_map,
    List.getElem?_map]
  cases hi : (firsts fields opened)[i]? with
  | none => rfl
  | some other =>
    have hsame : place = i ↔ mark fields record = mark fields other := by
      constructor
      · rintro rfl
        rw [← hmark, Option.some.inj (hfirst.symm.trans hi)]
      · intro hother
        have hi' := (h.lookup_eq_some_iff _ i).2 ⟨other, hi, hother.symm⟩
        exact Option.some.inj (hplace.symm.trans hi')
    simp only [Option.map_some, Option.map_eq_map, sharing_concat, hsame]
    split <;> simp

/-- **One step.** -/
theorem add (h : Tracks fields records records s) (record : Record) :
    Tracks fields (records ++ [record]) (records ++ [record]) (s.add fields record) := by
  obtain ⟨hopened, hplace⟩ := h.place record
  exact hopened.put hplace

end Tracks

/-- **All steps.**  After the last record the groups are those of all records. -/
theorem tracks_foldl (fields : List String) (records : List Record) :
    Tracks fields records records (records.foldl (add fields) .empty) := by
  induction records using List.reverseRecOn with
  | nil => exact tracks_empty fields
  | append_singleton records record ih =>
    rw [List.foldl_append]
    exact ih.add record

end Grouping

/-- **The groups of records.**  The records that come first in their groups lead, and each brings
along those that share its group. -/
theorem Record.group_eq (fields : List String) (records : List Record) :
    group fields records = (firsts fields records).map fun first =>
      groupEntry fields (groupKey fields first) (sharing fields first records) := by
  rw [group, (Grouping.tracks_foldl fields records).groups_eq, List.map_map]
  rfl

end Logbook
