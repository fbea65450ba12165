import Logbook.Proofs.Query.Projection
import Mathlib.Data.Fin.SuccPred
import Mathlib.Data.List.FinRange

/-!
# Groups divide the records

Grouping takes the records apart and loses none of them.  What comes out is told best by the places
that the records had: each place is in one group, the places of a group go up, and the groups stand in
the order of their first places.  Records that are equal in the grouping fields are in one group, and
so are the places of a record that occurs more than once.

Groups are made from marks alone, so this is a matter of places and marks.  A place leads if no
place in front has its mark; its peers are the places with its mark.  The peers of the places that lead
are the groups.

* `Divides`: lists of places that divide all places among them.
* `divides_classes`: the places of each mark do.
* `Record.firsts_eq_map`, `Record.sharing_eq_map`: which places lead, and which are led.
* `Record.sum_length_sharing`: the groups have as many members as there are records.
* `Record.Lists`: the members that an entry shows.
* `Record.exists_lists`, `Record.lists_congr`: the group of a record.
* `Record.groupEntry_eq_shown`: all that an entry shows.
* `Record.group_divides`: the groups divide the records.
-/

namespace Logbook

/-! ## Places and marks -/

/-- Holds when lists of places divide the places among them: each place is in one list, once; no list
is empty, and each goes up; and the lists go up in their first places. -/
structure Divides {n : ℕ} (parts : List (List (Fin n))) : Prop where
  nonempty : ∀ part ∈ parts, part ≠ []
  perm : parts.flatten.Perm (List.finRange n)
  ascending : ∀ part ∈ parts, part.Pairwise (· < ·)
  heads : parts.Pairwise fun p q => ∀ i ∈ p.head?, ∀ j ∈ q.head?, i < j

section Classes

variable {α : Type} [DecidableEq α] {n : ℕ}

/-- The places that lead: those whose mark is found nowhere in front. -/
def leaders (f : Fin n → α) : List (Fin n) :=
  (List.finRange n).filter fun i => ∀ j < i, f j ≠ f i

/-- The places with the mark of a place. -/
def peers (f : Fin n → α) (i : Fin n) : List (Fin n) :=
  (List.finRange n).filter fun j => f j = f i

/-- The places of each mark. -/
def classes (f : Fin n → α) : List (List (Fin n)) := (leaders f).map (peers f)

variable {f : Fin n → α} {i j : Fin n}

theorem mem_leaders_iff : i ∈ leaders f ↔ ∀ j < i, f j ≠ f i := by
  rw [leaders, List.mem_filter, decide_eq_true_eq]
  exact and_iff_right (List.mem_finRange i)

theorem mem_peers_iff : j ∈ peers f i ↔ f j = f i := by
  rw [peers, List.mem_filter, decide_eq_true_eq]
  exact and_iff_right (List.mem_finRange j)

theorem pairwise_leaders (f : Fin n → α) : (leaders f).Pairwise (· < ·) :=
  (List.pairwise_lt_finRange n).filter _

theorem pairwise_peers (f : Fin n → α) (i : Fin n) : (peers f i).Pairwise (· < ·) :=
  (List.pairwise_lt_finRange n).filter _

/-- What goes up begins with its least thing. -/
theorem head?_of_pairwise_lt {xs : List (Fin n)} (h : xs.Pairwise (· < ·)) (hi : i ∈ xs)
    (hleast : ∀ j ∈ xs, i ≤ j) : xs.head? = some i := by
  cases xs with
  | nil => exact absurd hi List.not_mem_nil
  | cons k ks =>
    rcases List.mem_cons.1 hi with rfl | hi
    · rfl
    · have hlt : k < i := List.rel_of_pairwise_cons h hi
      exact absurd (hleast k List.mem_cons_self) (not_le.2 hlt)

/-- A place that leads is the first among its peers. -/
theorem head?_peers (hi : i ∈ leaders f) : (peers f i).head? = some i := by
  refine head?_of_pairwise_lt (pairwise_peers f i) (mem_peers_iff.2 rfl) fun j hj => ?_
  by_contra hlt
  exact mem_leaders_iff.1 hi j (not_le.1 hlt) (mem_peers_iff.1 hj)

/-- For every place there is one that leads with its mark. -/
theorem exists_leader (f : Fin n → α) (j : Fin n) : ∃ i ∈ leaders f, f i = f j := by
  induction j using WellFoundedLT.induction with
  | ind j ih =>
    by_cases hj : ∀ k < j, f k ≠ f j
    · exact ⟨j, mem_leaders_iff.2 hj, rfl⟩
    · push Not at hj
      obtain ⟨k, hk, hmark⟩ := hj
      obtain ⟨i, hi, hik⟩ := ih k hk
      exact ⟨i, hi, hik.trans hmark⟩

/-- Places that lead have different marks. -/
theorem pairwise_marks_leaders (f : Fin n → α) : (leaders f).Pairwise fun i j => f i ≠ f j :=
  (pairwise_leaders f).imp_of_mem fun _ hj hlt => mem_leaders_iff.1 hj _ hlt

/-- **The places of each mark divide all places among them.** -/
theorem divides_classes (f : Fin n → α) : Divides (classes f) where
  nonempty := by
    rw [classes, List.forall_mem_map]
    intro i _
    exact List.ne_nil_of_mem (mem_peers_iff.2 rfl)
  perm := by
    refine (List.perm_ext_iff_of_nodup ?_ (List.nodup_finRange n)).2 fun j => ?_
    · rw [List.nodup_flatten, classes, List.forall_mem_map, List.pairwise_map]
      refine ⟨fun i _ => (List.nodup_finRange n).filter _, ?_⟩
      refine (pairwise_marks_leaders f).imp fun hmarks j hj hj' => hmarks ?_
      exact (mem_peers_iff.1 hj).symm.trans (mem_peers_iff.1 hj')
    · obtain ⟨i, hi, hmark⟩ := exists_leader f j
      refine iff_of_true (List.mem_flatten.2 ⟨peers f i, ?_, ?_⟩) (List.mem_finRange j)
      · exact List.mem_map_of_mem hi
      · exact mem_peers_iff.2 hmark.symm
  ascending := by
    rw [classes, List.forall_mem_map]
    exact fun i _ => pairwise_peers f i
  heads := by
    rw [classes, List.pairwise_map]
    refine (pairwise_leaders f).imp_of_mem fun hi hj hlt i' hi' j' hj' => ?_
    rw [head?_peers hi] at hi'
    rw [head?_peers hj] at hj'
    rwa [← Option.some.inj hi', ← Option.some.inj hj']

/-- The first place leads, and of the others those that do without it and have another mark. -/
theorem leaders_succ (f : Fin (n + 1) → α) :
    leaders f = 0 :: ((leaders fun i => f i.succ).filter fun i => f i.succ != f 0).map Fin.succ := by
  rw [leaders, List.finRange_succ, List.filter_cons_of_pos, List.filter_map, leaders,
    List.filter_filter]
  · congr 2
    refine List.filter_congr fun i _ => ?_
    simp [Fin.forall_fin_succ, bne, beq_eq_decide, eq_comm]
  · simp

end Classes

namespace Record

/-! ## The places of the groups -/

/-- The mark of the record in a place. -/
def markAt (fields : List String) (records : List Record) (i : Fin records.length) : String :=
  mark fields (records.get i)

/-- **The first records of the groups are those in the places that lead.** -/
theorem firsts_eq_map (fields : List String) (records : List Record) :
    firsts fields records = (leaders (markAt fields records)).map records.get := by
  induction records with
  | nil => rfl
  | cons r rs ih =>
    rw [firsts, ih, List.filter_map]
    show _ = List.map _ (leaders (markAt fields (r :: rs) : Fin (rs.length + 1) → String))
    rw [leaders_succ, List.map_cons, List.map_map]
    rfl

/-- The records that share the group of one are in the places with its mark. -/
theorem sharing_eq_map (fields : List String) (records : List Record) (i : Fin records.length) :
    sharing fields (records.get i) records
      = (peers (markAt fields records) i).map records.get := by
  have hplaces : sharing fields (records.get i) records
      = sharing fields (records.get i) ((List.finRange records.length).map records.get) := by
    rw [List.map_get_finRange]
  rw [hplaces, sharing, List.filter_map]
  rfl

theorem group_eq_map_leaders (fields : List String) (records : List Record) :
    group fields records = (leaders (markAt fields records)).map fun i =>
      groupEntry fields (groupKey fields (records.get i))
        ((peers (markAt fields records) i).map records.get) := by
  rw [group_eq, firsts_eq_map, List.map_map]
  refine List.map_congr_left fun i _ => ?_
  exact congrArg (groupEntry fields _) (sharing_eq_map fields records i)

/-! ## The members of the groups -/

/-- **The groups have as many members as there are records.** -/
theorem sum_length_sharing (fields : List String) (records : List Record) :
    ((firsts fields records).map fun first => (sharing fields first records).length).sum
      = records.length := by
  have hlengths : (firsts fields records).map (fun first =>
      (sharing fields first records).length)
        = (classes (markAt fields records)).map List.length := by
    rw [firsts_eq_map, classes, List.map_map, List.map_map]
    refine List.map_congr_left fun i _ => ?_
    show (sharing fields (records.get i) records).length
      = (peers (markAt fields records) i).length
    rw [sharing_eq_map, List.length_map]
  rw [hlengths, ← List.length_flatten, (divides_classes _).perm.length_eq, List.length_finRange]

theorem length_group_le (fields : List String) (records : List Record) :
    (group fields records).length ≤ records.length := by
  rw [group_eq_map_leaders, List.length_map, leaders]
  exact (List.length_filter_le _ _).trans_eq List.length_finRange

/-! ## What an entry shows -/

/-- Holds when the entry of a group lists a record among its members. -/
def Lists (entry record : Record) : Prop :=
  ∃ members, Members.get? "entries" entry = some (.list members) ∧ .map record ∈ members

theorem get?_count_groupEntry (fields : List String) (key : List Value) (members : List Record) :
    Members.get? "count" (groupEntry fields key members) = some (.ofNat members.length) := by
  rw [groupEntry, groupHead, Members.get?_insert_of_ne (by decide), Members.get?_insert_self]

theorem lists_groupEntry_iff {fields : List String} {key : List Value} {members : List Record}
    {record : Record} : Lists (groupEntry fields key members) record ↔ record ∈ members := by
  rw [Lists, get?_entries_groupEntry]
  constructor
  · rintro ⟨values, hvalues, hrecord⟩
    rw [← Value.list.inj (Option.some.inj hvalues)] at hrecord
    obtain ⟨r, hr, hmap⟩ := List.mem_map.1 hrecord
    rwa [← Value.map.inj hmap]
  · exact fun hrecord => ⟨_, rfl, List.mem_map_of_mem hrecord⟩

/-- Every record is in a group. -/
theorem exists_lists {records : List Record} {r : Record} (hr : r ∈ records)
    (fields : List String) : ∃ entry ∈ group fields records, Lists entry r := by
  obtain ⟨first, hfirst, hmark⟩ := exists_first fields hr
  rw [group_eq]
  refine ⟨_, List.mem_map_of_mem hfirst, lists_groupEntry_iff.2 ?_⟩
  exact mem_sharing_iff.2 ⟨hr, hmark.symm⟩

/-- **Records of one mark are in one group.** -/
theorem lists_congr {fields : List String} {records : List Record} {a b : Record}
    (ha : a ∈ records) (hb : b ∈ records) (h : mark fields a = mark fields b)
    {entry : Record} (hentry : entry ∈ group fields records) : Lists entry a ↔ Lists entry b := by
  obtain ⟨r, -, rfl⟩ := exists_of_mem_group hentry
  rw [lists_groupEntry_iff, lists_groupEntry_iff, mem_sharing_iff, mem_sharing_iff, h]
  exact and_congr_left fun _ => iff_of_true ha hb

/-! ## All that an entry shows -/

/-- The entry that stands for records: each grouping field, where it is first named, with the value
that it has in the first of them, null if it is missing; the number of the records; and the records
themselves. -/
def shown (fields : List String) : List Record → Record
  | [] => []
  | first :: others =>
    fields.eraseDups.map (fun field => (field, (first.lookup field).getD .null)) ++
      [("count", .ofNat (first :: others).length), ("entries", .list ((first :: others).map .map))]

section Entries

variable {fields : List String} (hfields : ∀ field ∈ fields, field ≠ "count" ∧ field ≠ "entries")
include hfields

theorem groupEntry_eq_shown (first : Record) (others : List Record) :
    groupEntry fields (groupKey fields first) (first :: others) = shown fields (first :: others) := by
  have hentries : "entries" ∉ fields := fun h => (hfields _ h).2 rfl
  have hcount : "count" ∉ Members.keys
      (fields.eraseDups.map fun field => (field, (first.lookup field).getD .null)) := by
    rw [Members.keys, List.map_map, List.mem_map]
    rintro ⟨field, hfield, rfl⟩
    exact (hfields _ (List.mem_eraseDups.1 hfield)).1 rfl
  rw [groupEntry_eq hentries, entryOf, groupHead, zip_groupKey, Members.ofList_map,
    Members.insert_of_not_mem _ hcount, List.append_assoc]
  rfl

/-- The entry of each group stands for the records in its places. -/
theorem group_eq_map_shown (records : List Record) :
    group fields records
      = (classes (markAt fields records)).map fun part => shown fields (part.map records.get) := by
  rw [group_eq_map_leaders, classes, List.map_map]
  refine List.map_congr_left fun i hi => ?_
  obtain ⟨others, hpeers⟩ := List.head?_eq_some_iff.1 (head?_peers hi)
  show _ = shown fields ((peers (markAt fields records) i).map records.get)
  rw [hpeers, List.map_cons, groupEntry_eq_shown hfields]

/-! ## The keys of the groups -/

/-- Holds when two entries show equal values in each grouping field. -/
def SameKey (fields : List String) (g h : Record) : Prop :=
  ∀ field ∈ fields,
    ((Members.get? field g).getD .null).equal ((Members.get? field h).getD .null) = true

theorem markAt_eq_of_sameKey {records : List Record}
    (hrecords : ∀ r ∈ records, (Value.map r).WellFormed) {i j : Fin records.length}
    {members members' : List Record}
    (h : SameKey fields (groupEntry fields (groupKey fields (records.get i)) members)
      (groupEntry fields (groupKey fields (records.get j)) members')) :
    markAt fields records i = markAt fields records j := by
  rw [markAt, markAt, mark_eq_iff (hrecords _ (records.get_mem i))
    (hrecords _ (records.get_mem j))]
  intro field hfield
  have hequal := h field hfield
  obtain ⟨hcount, hentries⟩ := hfields field hfield
  rwa [get?_groupEntry hfield hcount hentries, get?_groupEntry hfield hcount hentries] at hequal

end Entries

/-- **Grouping divides the records.**  The places of the records are divided into parts, and the
groups show the records of these, part by part.  A record that occurs more than once does so in one
part, and two groups never show equal keys. -/
theorem group_divides {fields : List String} {records : List Record}
    (hfields : ∀ field ∈ fields, field ≠ "count" ∧ field ≠ "entries")
    (hrecords : ∀ r ∈ records, (Value.map r).WellFormed) :
    ∃ parts : List (List (Fin records.length)),
      Divides parts ∧
      group fields records = parts.map (fun part => shown fields (part.map records.get)) ∧
      (∀ part ∈ parts, ∀ i ∈ part, ∀ j, records.get j = records.get i → j ∈ part) ∧
      (group fields records).Pairwise fun g h => ¬ SameKey fields g h ∧ ¬ SameKey fields h g := by
  refine ⟨classes (markAt fields records), divides_classes _, group_eq_map_shown hfields records,
    ?_, ?_⟩
  · rw [classes, List.forall_mem_map]
    intro i _ j hj k hsame
    have hmark : markAt fields records k = markAt fields records j := by
      rw [markAt, markAt, hsame]
    exact mem_peers_iff.2 (hmark.trans (mem_peers_iff.1 hj))
  · rw [group_eq_map_leaders, List.pairwise_map]
    refine (pairwise_marks_leaders _).imp fun hmarks => ⟨fun h => hmarks ?_, fun h => hmarks ?_⟩
    · exact markAt_eq_of_sameKey hfields hrecords h
    · exact (markAt_eq_of_sameKey hfields hrecords h).symm

/-- Three records, two of which have equal values in a field; another field is named twice. -/
theorem group_divides_mixedRecords :
    (∃ parts : List (List (Fin 3)), Divides parts ∧ group ["b", "a", "b"] mixedRecords
      = parts.map fun part => shown ["b", "a", "b"] (part.map mixedRecords.get)) ∧
    (group ["b", "a", "b"] mixedRecords).Pairwise fun g h =>
      ¬ SameKey ["b", "a", "b"] g h ∧ ¬ SameKey ["b", "a", "b"] h g := by
  have hfields : ∀ field ∈ ["b", "a", "b"], field ≠ "count" ∧ field ≠ "entries" := by decide
  have hrecords : ∀ r ∈ mixedRecords, (Value.map r).WellFormed := by
    simp [mixedRecords, Value.WellFormed, Value.WellFormedMembers, Members.keys, Number.InRange,
      Double.wordFloor, Double.wordCeil]
  obtain ⟨parts, hdivides, hgroup, -, hkeys⟩ := group_divides hfields hrecords
  exact ⟨⟨parts, hdivides, hgroup⟩, hkeys⟩

end Record

end Logbook
