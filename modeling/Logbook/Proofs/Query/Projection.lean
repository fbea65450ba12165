import Logbook.Proofs.Query.DrillDown
import Logbook.Proofs.Query.Sorting
import Logbook.Proofs.Value.Congruence
import Logbook.Query.Run

/-!
# Projection and the stages after it

A query that asks for some fields only is projected before it is grouped and sorted.  As long as the
later stages use none but the fields that are kept, the projection might as well be the last thing
done: the same entries come out, in the same order and on the same page, each of them cut down.

A projected record is flat where the record was deep: a path that was asked for is a key now.  So a
later look-up may go another way than before, and yet it finds the same.  A name that was kept is
looked up as a key; and one that was not found before is not found now, since the first segment of a
path has no dot and stands for the same map, if it was kept at all.

* `Record.lookup_project`: a field that is kept has the value it had.
* `Record.project_keeps_found`: what a projected record has, and what it has not.
* `Record.group_map`: groups of projected records.
* `Query.exists_arranged_map`: sorting depends on the values of the order keys only.
* `Query.run_project`: projecting first is projecting last.
-/

namespace Logbook

/-! ## Projected records -/

namespace Record

/-- The pairs from which a projected record is built. -/
theorem mem_projected_iff {fields : List String} {record : Record} {p : String × Value} :
    p ∈ fields.filterMap (fun field => (record.lookup field).map fun v => (field, v))
      ↔ p.1 ∈ fields ∧ record.lookup p.1 = some p.2 := by
  rw [List.mem_filterMap]
  constructor
  · rintro ⟨field, hfield, hp⟩
    obtain ⟨v, hv, rfl⟩ := Option.map_eq_some_iff.1 hp
    exact ⟨hfield, hv⟩
  · rintro ⟨hfield, hv⟩
    exact ⟨p.1, hfield, by rw [hv]; rfl⟩

/-- A projected record has what was found under the names that were asked for. -/
theorem get?_project (fields : List String) (field : String) (record : Record) :
    Members.get? field (project fields record)
      = if field ∈ fields then record.lookup field else none := by
  rw [project, Members.get?_ofList (φ := fun field => (record.lookup field).getD .null)
    fun p hp => by rw [(mem_projected_iff.1 hp).2]; rfl]
  rcases hfound : record.lookup field with _ | v
  · rw [ite_self, if_neg]
    intro hkey
    obtain ⟨p, hp, rfl⟩ := List.mem_map.1 hkey
    rw [(mem_projected_iff.1 hp).2] at hfound
    exact absurd hfound (by simp)
  · refine if_congr ⟨fun hkey => ?_, fun hfield => ?_⟩ rfl rfl
    · obtain ⟨p, hp, rfl⟩ := List.mem_map.1 hkey
      exact (mem_projected_iff.1 hp).1
    · exact Members.mem_keys_of_mem (mem_projected_iff.2 ⟨hfield, hfound⟩)

/-- **A field that is kept has the value that it had**, and one that was missing is missing. -/
theorem lookup_project {fields : List String} {field : String} (h : field ∈ fields)
    (record : Record) : (project fields record).lookup field = record.lookup field := by
  by_cases hdot : '.' ∈ field.toList
  · obtain ⟨first, next, path, hsegments, hfirst⟩ := Field.exists_segments hdot
    rw [lookup_of_dotted hdot hsegments, get?_project, if_pos h, get?_project]
    cases hfound : record.lookup field with
    | some v => rfl
    | none =>
      -- nothing was found, so nothing is found from the first segment on
      rw [lookup_of_dotted hdot hsegments, Option.or_eq_none_iff] at hfound
      rw [Option.none_or]
      split_ifs
      · rw [lookup_of_not_dotted hfirst, hfound.2]
      · rfl
  · rw [lookup_of_not_dotted hdot, get?_project, if_pos h]

/-- The keys of a projected record are the names that were found, in the order of asking. -/
theorem keys_project (fields : List String) (record : Record) :
    Members.keys (project fields record)
      = (fields.filter fun field => (record.lookup field).isSome).eraseDups := by
  have hpairs : fields.filterMap (fun field => (record.lookup field).map fun v => (field, v))
      = (fields.filter fun field => (record.lookup field).isSome).map
          fun field => (field, (record.lookup field).getD .null) := by
    induction fields with
    | nil => rfl
    | cons field fields ih =>
      cases hfound : record.lookup field with
      | none => simpa [hfound] using ih
      | some v => simpa [hfound] using ih
  rw [project, hpairs, Members.ofList_map, Members.keys, List.map_map]
  exact List.map_id _

/-- Without its repetitions a list names its entries in the order of first mention, also when some of
them are left out. -/
theorem pairwise_idxOf_eraseDups (xs : List String) (p : String → Bool) :
    (xs.filter p).eraseDups.Pairwise fun a b => xs.idxOf a < xs.idxOf b := by
  induction xs generalizing p with
  | nil => exact .nil
  | cons x xs ih =>
    have hlater : ∀ {a}, a ≠ x → (x :: xs).idxOf a = xs.idxOf a + 1 :=
      fun ha => List.idxOf_cons_ne xs (Ne.symm ha)
    by_cases hx : p x = true
    · rw [List.filter_cons_of_pos hx, List.eraseDups_cons, List.filter_filter, List.pairwise_cons]
      have hne : ∀ a ∈ (xs.filter fun a => !a == x && p a).eraseDups, a ≠ x := by
        intro a ha
        have hmem := (List.mem_filter.1 (List.mem_eraseDups.1 ha)).2
        simp only [Bool.and_eq_true, Bool.not_eq_true', beq_eq_false_iff_ne] at hmem
        exact hmem.1
      refine ⟨fun a ha => ?_, (ih _).imp_of_mem fun {a b} ha hb hab => ?_⟩
      · rw [hlater (hne a ha), List.idxOf_cons_self]
        exact Nat.succ_pos _
      · rw [hlater (hne a ha), hlater (hne b hb)]
        exact Nat.succ_lt_succ hab
    · have hne : ∀ a ∈ (xs.filter p).eraseDups, a ≠ x := by
        rintro a ha rfl
        exact hx (List.mem_filter.1 (List.mem_eraseDups.1 ha)).2
      rw [List.filter_cons_of_neg hx]
      refine (ih p).imp_of_mem fun {a b} ha hb hab => ?_
      rw [hlater (hne a ha), hlater (hne b hb)]
      exact Nat.succ_lt_succ hab

/-- **A projection keeps what look-up finds, and no more.**  Each name that was asked for is looked up
with the same outcome as before, also where it was not found.  The keys are the names that were found,
each once and in the order in which they were first asked for.  A second projection to the same fields
changes nothing. -/
theorem project_keeps_found (fields : List String) (record : Record) :
    (∀ field ∈ fields, (project fields record).lookup field = record.lookup field) ∧
    (∀ field, field ∈ Members.keys (project fields record) ↔
      field ∈ fields ∧ ∃ v, record.lookup field = some v) ∧
    (Members.keys (project fields record)).Nodup ∧
    (Members.keys (project fields record)).Pairwise
      (fun a b => fields.idxOf a < fields.idxOf b) ∧
    project fields (project fields record) = project fields record := by
  have horder := pairwise_idxOf_eraseDups fields fun field => (record.lookup field).isSome
  rw [← keys_project] at horder
  refine ⟨fun field h => lookup_project h record, fun field => ?_, ?_, horder, ?_⟩
  · rw [keys_project, List.mem_eraseDups, List.mem_filter, Option.isSome_iff_exists]
  · refine horder.imp fun {a b} hlt hab => ?_
    rw [hab] at hlt
    exact Nat.lt_irrefl _ hlt
  · have hsame : ∀ field ∈ fields,
        ((project fields record).lookup field).map (fun v => (field, v))
          = (record.lookup field).map fun v => (field, v) := by
      intro field hfield
      rw [lookup_project hfield]
    exact congrArg Members.ofList (List.filterMap_congr hsame)

/-- A record with a path, a key that is spelled like the path, and a key that hides a path. -/
def shadowingRecord : Record :=
  [("a", .map [("b", .num (.int 1)), ("c", .null)]), ("a.b", .num (.int 2)), ("d", .bool true)]

/-- Names for it, of which one is repeated, one is unknown and one leads on from no map. -/
def shadowingFields : List String := ["a.b.c", "a.b", "x", "a.c", "a", "a.b"]

/-- The key hides the path before and after, and what was absent stays absent. -/
theorem project_keeps_found_shadowingRecord :
    "a.b.c" ∈ shadowingFields ∧ "a.b" ∈ shadowingFields ∧
      Members.keys (project shadowingFields shadowingRecord) = ["a.b", "a.c", "a"] ∧
      (project shadowingFields shadowingRecord).lookup "a.b" = some (.num (.int 2)) ∧
      (project shadowingFields shadowingRecord).lookup "a.b.c" = none := by
  have hkept := (project_keeps_found shadowingFields shadowingRecord).1
  refine ⟨by decide, by decide, by decide +kernel, ?_, ?_⟩
  · rw [hkept "a.b" (by decide)]
    rfl
  · rw [hkept "a.b.c" (by decide)]
    rfl

theorem groupKey_project {groupFields fields : List String} (h : ∀ g ∈ groupFields, g ∈ fields)
    (record : Record) : groupKey groupFields (project fields record) = groupKey groupFields record := by
  rw [groupKey, groupKey]
  refine List.map_congr_left fun field hfield => ?_
  rw [lookup_project (h field hfield)]

/-! ## Order keys -/

/-- The order of two entries depends on the values of the order keys only. -/
theorem orderBy_congr {keys : List OrderKey} {a a' b b' : Record}
    (h : ∀ key ∈ keys, a'.lookup key.field = a.lookup key.field ∧
      b'.lookup key.field = b.lookup key.field) : orderBy keys a' b' = orderBy keys a b := by
  induction keys with
  | nil => rfl
  | cons key keys ih =>
    rw [List.forall_mem_cons] at h
    rw [orderBy_cons, orderBy_cons, ih h.2, OrderKey.order, OrderKey.order, h.1.1, h.1.2]

/-! ## Groups of changed records -/

/-- The entry of a group: what is shown of the group itself, and then its members. -/
def entryOf (head : Members) (members : List Record) : Record :=
  head ++ [("entries", .list (members.map .map))]

/-- Where no grouping field is called `entries`, the members come last in the entry of a group. -/
theorem groupEntry_eq {fields : List String} (h : "entries" ∉ fields) (key : List Value)
    (members : List Record) :
    groupEntry fields key members = entryOf (groupHead fields key members.length) members := by
  rw [groupEntry, Members.insert_of_not_mem]
  · rfl
  · intro hkey
    rcases Members.mem_keys_insert hkey with hcount | hkey
    · exact absurd hcount (by decide)
    · obtain ⟨p, hp, hentries⟩ := List.mem_map.1 (Members.mem_keys_ofList hkey)
      exact h (hentries ▸ (List.of_mem_zip hp).1)

/-- The groups of the records: what is shown of each, and its members. -/
def groups (fields : List String) (records : List Record) : List (Members × List Record) :=
  (firsts fields records).map fun first =>
    let members := sharing fields first records
    (groupHead fields (groupKey fields first) members.length, members)

section Changed

variable {f : Record → Record} {fields : List String}
  (hf : ∀ r, groupKey fields (f r) = groupKey fields r)
include hf

theorem mark_of_groupKey_eq (r : Record) : mark fields (f r) = mark fields r := by
  rw [mark, mark, hf]

theorem firsts_map (records : List Record) :
    firsts fields (records.map f) = (firsts fields records).map f := by
  induction records with
  | nil => rfl
  | cons r rs ih =>
    rw [List.map_cons, firsts, firsts, List.map_cons, ih, List.filter_map]
    refine congrArg (fun rest => f r :: rest.map f) (List.filter_congr fun s _ => ?_)
    show (mark fields (f s) != mark fields (f r)) = _
    rw [mark_of_groupKey_eq hf, mark_of_groupKey_eq hf]

theorem sharing_map (first : Record) (records : List Record) :
    sharing fields (f first) (records.map f) = (sharing fields first records).map f := by
  rw [sharing, sharing, List.filter_map]
  refine congrArg (List.map f) (List.filter_congr fun s _ => ?_)
  show (mark fields (f s) == mark fields (f first)) = _
  rw [mark_of_groupKey_eq hf, mark_of_groupKey_eq hf]

/-- **Records that keep their grouping fields keep their groups.**  The same groups come out in the
same order, and each has the changed records for members. -/
theorem group_map (h : "entries" ∉ fields) (records : List Record) :
    group fields (records.map f)
      = (groups fields records).map fun g => entryOf g.1 (g.2.map f) := by
  rw [group_eq, firsts_map hf, groups, List.map_map, List.map_map]
  refine List.map_congr_left fun first _ => ?_
  show groupEntry fields (groupKey fields (f first)) (sharing fields (f first) (records.map f)) = _
  rw [hf, sharing_map hf, groupEntry_eq h, List.length_map]
  rfl

end Changed

/-- The groups, when no record is changed. -/
theorem group_eq_map_groups {fields : List String} (h : "entries" ∉ fields)
    (records : List Record) :
    group fields records = (groups fields records).map fun g => entryOf g.1 g.2 := by
  have hsame := group_map (f := id) (fun _ => rfl) h records
  simpa only [List.map_id] using hsame

/-- The values under the other keys are shown in front of the members. -/
theorem get?_entryOf {key : String} (h : key ≠ "entries") (head : Members)
    (members : List Record) : Members.get? key (entryOf head members) = Members.get? key head := by
  rw [entryOf, Members.get?_append, Members.get?_cons, if_neg (Ne.symm h), Members.get?_nil,
    Option.or_none]

/-- Only the field `entries` itself tells the members of a group. -/
theorem lookup_entryOf {field : String} (h : field ≠ "entries") (head : Members)
    (members members' : List Record) :
    (entryOf head members').lookup field = (entryOf head members).lookup field := by
  by_cases hdot : '.' ∈ field.toList
  · obtain ⟨first, next, path, hsegments, -⟩ := Field.exists_segments hdot
    rw [lookup_of_dotted hdot hsegments, lookup_of_dotted hdot hsegments, get?_entryOf h,
      get?_entryOf h]
    by_cases hfirst : first = "entries"
    · -- a path that goes on from a list leads nowhere
      rw [hfirst, entryOf, entryOf, Members.get?_append, Members.get?_append]
      rcases Members.get? "entries" head with _ | v <;> rfl
    · rw [get?_entryOf hfirst, get?_entryOf hfirst]
  · rw [lookup_of_not_dotted hdot, lookup_of_not_dotted hdot, get?_entryOf h, get?_entryOf h]

/-- What is shown of a group has the grouping fields and the number of members. -/
theorem shown_of_mem_groups {fields : List String}
    (h : ∀ field ∈ fields, field ≠ "count" ∧ field ≠ "entries") {records : List Record}
    {g : Members × List Record} (hg : g ∈ groups fields records) :
    (∀ field ∈ fields, field ∈ Members.keys g.1) ∧
      Members.get? "count" g.1 = some (.ofNat g.2.length) := by
  obtain ⟨first, -, rfl⟩ := List.mem_map.1 hg
  refine ⟨fun field hfield => ?_, Members.get?_insert_self _ _ _⟩
  obtain ⟨hcount, hentries⟩ := h field hfield
  have hshown := get?_groupEntry hfield hcount hentries first (sharing fields first records)
  rw [groupEntry, Members.get?_insert_of_ne (Ne.symm hentries)] at hshown
  exact Members.mem_keys_iff.2 ⟨_, hshown⟩

end Record

namespace Query

/-! ## The stages after grouping -/

theorem page_map {α β : Type} (q : Query) (f : α → β) (entries : List α) :
    q.page (entries.map f) = (q.page entries).map f := by
  rw [page, page]
  cases q.limit with
  | none => rw [List.map_drop]
  | some limit => rw [List.map_take, List.map_drop]

/-- Entries that were made from the same things and agree in the order keys come out in the same
order. -/
theorem exists_arranged_map {α : Type} (q : Query) {f g : α → Record} (xs : List α)
    (h : ∀ keys, q.orderBy = some keys → ∀ key ∈ keys, ∀ x,
      (g x).lookup key.field = (f x).lookup key.field) :
    ∃ ys : List α, ys.Perm xs ∧ q.arranged (xs.map f) = ys.map f ∧
      q.arranged (xs.map g) = ys.map g := by
  cases hkeys : q.orderBy with
  | none => exact ⟨xs, .refl xs, by rw [arranged, hkeys], by rw [arranged, hkeys]⟩
  | some keys =>
    have horder : ∀ x y, Record.orderBy keys (g x) (g y) = Record.orderBy keys (f x) (f y) :=
      fun x y => Record.orderBy_congr fun key hkey =>
        ⟨h keys hkeys key hkey x, h keys hkeys key hkey y⟩
    refine ⟨xs.mergeSort fun x y => Record.orderBy keys (f x) (f y) != .gt,
      List.mergeSort_perm xs _, ?_, ?_⟩
    · rw [arranged, hkeys]
      exact (List.map_mergeSort (f := f) fun x _ y _ => rfl).symm
    · rw [arranged, hkeys]
      exact (List.map_mergeSort (f := g) fun x _ y _ => by rw [horder]).symm

/-- The query without its projection. -/
def withoutFind (q : Query) : Query := { q with find := none }

/-- Projecting is done first, and the query goes on as if it had not been asked for. -/
theorem shape_eq_withoutFind (q : Query) (records : List Record) :
    q.shape records = q.withoutFind.shape (q.projected records) := rfl

theorem projected_of_find {q : Query} {fields : List String} (h : q.find = some fields)
    (records : List Record) : q.projected records = records.map (Record.project fields) := by
  rw [projected, h]

theorem shape_ungrouped {q : Query} (h : q.groupBy = none) (records : List Record) :
    q.withoutFind.shape records = q.arranged records := by
  show q.arranged (q.grouped records) = _
  rw [grouped, h]

theorem shape_grouped {q : Query} {groupFields : List String} (h : q.groupBy = some groupFields)
    (records : List Record) :
    q.withoutFind.shape records = q.arranged (Record.group groupFields records) := by
  show q.arranged (q.grouped records) = _
  rw [grouped, h]

section Shape

variable {q : Query} {fields : List String} (hfind : q.find = some fields)
include hfind

/-- Without grouping, projecting the records is projecting the entries. -/
theorem exists_shape_ungrouped (hgroup : q.groupBy = none)
    (hkeys : ∀ keys, q.orderBy = some keys → ∀ key ∈ keys, key.field ∈ fields)
    (records : List Record) :
    ∃ entries : List Record, q.withoutFind.shape records = entries.map id ∧
      q.shape records = entries.map (Record.project fields) := by
  obtain ⟨entries, -, hwhole, hprojected⟩ := q.exists_arranged_map (f := id)
    (g := Record.project fields) records fun keys h key hkey r =>
      Record.lookup_project (hkeys keys h key hkey) r
  refine ⟨entries, ?_, ?_⟩
  · rw [shape_ungrouped hgroup, ← hwhole, List.map_id]
  · rw [shape_eq_withoutFind, projected_of_find hfind, shape_ungrouped hgroup, hprojected]

/-- With grouping, projecting the records is projecting the members of the groups. -/
theorem exists_shape_grouped {groupFields : List String} (hgroup : q.groupBy = some groupFields)
    (hfields : ∀ field ∈ groupFields, field ∈ fields) (hentries : "entries" ∉ groupFields)
    (hkeys : ∀ keys, q.orderBy = some keys → ∀ key ∈ keys, key.field ≠ "entries")
    (records : List Record) :
    ∃ groups : List (Members × List Record), groups.Perm (Record.groups groupFields records) ∧
      q.withoutFind.shape records = groups.map (fun g => Record.entryOf g.1 g.2) ∧
      q.shape records
        = groups.map fun g => Record.entryOf g.1 (g.2.map (Record.project fields)) := by
  obtain ⟨groups, hperm, hwhole, hprojected⟩ := q.exists_arranged_map
    (f := fun g => Record.entryOf g.1 g.2)
    (g := fun g => Record.entryOf g.1 (g.2.map (Record.project fields)))
    (Record.groups groupFields records) fun keys h key hkey g =>
      Record.lookup_entryOf (hkeys keys h key hkey) g.1 g.2 _
  refine ⟨groups, hperm, ?_, ?_⟩
  · rw [shape_grouped hgroup, Record.group_eq_map_groups hentries, hwhole]
  · rw [shape_eq_withoutFind, projected_of_find hfind, shape_grouped hgroup,
      Record.group_map (Record.groupKey_project hfields) hentries, hprojected]

end Shape

/-! ## Answers -/

theorem mem_of_mem_page {α : Type} {q : Query} {xs : List α} {x : α} (h : x ∈ q.page xs) :
    x ∈ xs := by
  unfold page at h
  dsimp only at h
  split at h
  · exact List.mem_of_mem_drop (List.mem_of_mem_take h)
  · exact List.mem_of_mem_drop h

/-- What is answered when the page was made from these things in this way. -/
theorem run_of_shape {α : Type} {q : Query} {records : List Record} {xs : List α} {f : α → Record}
    (h : q.shape (Clause.select q.filter records) = xs.map f) :
    q.run records = ⟨(q.page xs).map fun x => .map (f x), (q.page xs).length,
      (Clause.select q.filter records).length⟩ := by
  rw [run, h, page_map, List.map_map, List.length_map]
  rfl

/-- **Projecting first is projecting last**, where the later stages use only fields that are kept.
Without grouping, the entries are those of the query without projection, each of them projected.
With grouping, the groups are the same and show the same, and their members are projected.  In both
cases entries and groups come in the same order, and as many of them. -/
theorem run_project {q : Query} {fields : List String} (hfind : q.find = some fields)
    (records : List Record) :
    let whole := q.withoutFind.run records
    let projected := q.run records
    (q.groupBy = none →
      (∀ keys, q.orderBy = some keys → ∀ key ∈ keys, key.field ∈ fields) →
      ∃ entries : List Record,
        whole.data = entries.map .map ∧
        projected.data = entries.map (fun e => .map (Record.project fields e)) ∧
        projected.count = whole.count ∧ projected.totalCount = whole.totalCount) ∧
    (∀ groupFields, q.groupBy = some groupFields →
      (∀ field ∈ groupFields, field ∈ fields ∧ field ≠ "count" ∧ field ≠ "entries") →
      (∀ keys, q.orderBy = some keys → ∀ key ∈ keys, key.field ≠ "entries") →
      ∃ groups : List (Members × List Record),
        whole.data = groups.map (fun g => .map (Record.entryOf g.1 g.2)) ∧
        projected.data = groups.map
          (fun g => .map (Record.entryOf g.1 (g.2.map (Record.project fields)))) ∧
        (∀ g ∈ groups, (∀ field ∈ groupFields, field ∈ Members.keys g.1) ∧
          Members.get? "count" g.1 = some (.ofNat g.2.length)) ∧
        projected.count = whole.count ∧ projected.totalCount = whole.totalCount) := by
  intro whole projected
  let kept := Clause.select q.filter records
  refine ⟨fun hgroup hkeys => ?_, fun groupFields hgroup hfields hkeys => ?_⟩
  · obtain ⟨entries, hp, hq⟩ := exists_shape_ungrouped hfind hgroup hkeys kept
    have hwhole : whole = _ := run_of_shape hp
    have hprojected : projected = _ := run_of_shape hq
    rw [hwhole, hprojected]
    exact ⟨q.page entries, rfl, rfl, rfl, rfl⟩
  · obtain ⟨groups, hperm, hp, hq⟩ := exists_shape_grouped hfind hgroup
      (fun field h => (hfields field h).1) (fun h => (hfields _ h).2.2 rfl) hkeys kept
    have hwhole : whole = _ := run_of_shape hp
    have hprojected : projected = _ := run_of_shape hq
    rw [hwhole, hprojected]
    refine ⟨q.page groups, rfl, rfl, fun g hg => ?_, rfl, rfl⟩
    exact Record.shown_of_mem_groups (fun field h => (hfields field h).2)
      (hperm.mem_iff.1 (mem_of_mem_page hg))

/-- Records that have a field at the end of a path, under a key with a dot, and not at all. -/
def dottedRecords : List Record :=
  [[("a", .map [("b", .num (.int 1))]), ("c", .null)], [("a.b", .num (.int 0))], [("c", .null)]]

/-- The second and third entries by a nested field, with this field alone. -/
def dottedQuery (groupBy : Option (List String)) : Query :=
  ⟨some ["a.b"], none, groupBy, some [⟨"a.b", .desc⟩], some 2, some 1⟩

/-- A path that became a key sorts and groups as before. -/
theorem run_project_dottedField :
    (∃ entries : List Record,
      ((dottedQuery none).withoutFind.run dottedRecords).data = entries.map .map ∧
      ((dottedQuery none).run dottedRecords).data
        = entries.map fun e => .map (Record.project ["a.b"] e)) ∧
    (∃ groups : List (Members × List Record),
      ((dottedQuery (some ["a.b"])).withoutFind.run dottedRecords).data
        = groups.map (fun g => .map (Record.entryOf g.1 g.2)) ∧
      ((dottedQuery (some ["a.b"])).run dottedRecords).data
        = groups.map fun g => .map (Record.entryOf g.1 (g.2.map (Record.project ["a.b"])))) := by
  constructor
  · obtain ⟨entries, hwhole, hprojected, -⟩ :=
      (run_project (q := dottedQuery none) rfl dottedRecords).1 rfl
        (by rintro keys ⟨⟩ key hkey; simp_all)
    exact ⟨entries, hwhole, hprojected⟩
  · obtain ⟨groups, hwhole, hprojected, -⟩ :=
      (run_project (q := dottedQuery (some ["a.b"])) rfl dottedRecords).2 _ rfl (by decide)
        (by rintro keys ⟨⟩ key hkey; simp_all)
    exact ⟨groups, hwhole, hprojected⟩

end Query

end Logbook
