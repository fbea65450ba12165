import Logbook.Proofs.Query.Groups

/-!
# Counts and pages

An answer tells how many records the filter let through, and how many entries it holds.  The first
number belongs to the filter alone.  The second is never greater, because grouping puts records
together and a page leaves entries out, but nothing makes more of them.

Pages are cut from one list, the answer without limit and offset.  Whoever asks for page after page
gets that list, each entry once, and then empty pages.  Nothing is assumed of the size of a page or of
the place where it begins.

* `Query.unpaged`, `Query.withPage`: a query without limit and offset, and with others.
* `Query.run_data`: every answer is cut from the one without limit and offset.
* `Query.pages_eq_take`: the first pages, one after the other.
* `Query.exists_counts`: the groups count every record that the filter let through.
* `Query.run_counts_and_pages`: the numbers and pages of an answer fit together.
-/

namespace Logbook

namespace Query

/-- The query without limit and offset. -/
def unpaged (q : Query) : Query := { q with limit := none, offset := none }

/-- The query for another page. -/
def withPage (q : Query) (limit offset : ℕ) : Query :=
  { q with limit := some limit, offset := some offset }

/-! ## The length of an answer -/

theorem length_projected (q : Query) (records : List Record) :
    (q.projected records).length = records.length := by
  unfold projected
  split
  · exact List.length_map _
  · rfl

theorem arranged_perm (q : Query) (entries : List Record) : (q.arranged entries).Perm entries := by
  unfold arranged
  split
  · exact Record.perm_sort _ entries
  · exact .refl entries

theorem length_shape_le (q : Query) (records : List Record) :
    (q.shape records).length ≤ records.length := by
  rw [shape_eq_withoutFind, ← q.length_projected records]
  cases hgroup : q.groupBy with
  | some fields =>
    rw [shape_grouped hgroup, (q.arranged_perm _).length_eq]
    exact Record.length_group_le fields _
  | none => rw [shape_ungrouped hgroup, (q.arranged_perm _).length_eq]

/-! ## Pages -/

theorem page_eq {α : Type} (q : Query) (entries : List α) :
    q.page entries
      = (entries.drop (q.offset.getD 0)).take (q.limit.getD entries.length) := by
  unfold page
  cases q.limit with
  | some limit => rfl
  | none =>
    refine (List.take_of_length_le ?_).symm
    rw [List.length_drop, Option.getD_none]
    exact Nat.sub_le _ _

theorem length_page_le {α : Type} (q : Query) (entries : List α) :
    (q.page entries).length ≤ entries.length := by
  rw [page_eq, List.length_take, List.length_drop]
  exact (min_le_right _ _).trans (Nat.sub_le _ _)

/-- Without limit and offset, an answer has all entries. -/
theorem run_unpaged (q : Query) (records : List Record) :
    (q.unpaged.run records).data = (q.shape (Clause.select q.filter records)).map .map := rfl

/-- **Every answer is cut from the one without limit and offset.** -/
theorem run_data (q : Query) (records : List Record) :
    (q.run records).data = q.page (q.unpaged.run records).data := by
  rw [run_unpaged, page_map]
  rfl

/-- Pieces of one length, one after the other, are the list from which they are cut. -/
theorem flatMap_pieces {α : Type} (xs : List α) (n m : ℕ) :
    ((List.range m).flatMap fun k => (xs.drop (k * n)).take n) = xs.take (m * n) := by
  induction m with
  | zero => rw [List.range_zero, List.flatMap_nil, Nat.zero_mul, List.take_zero]
  | succ m ih =>
    rw [List.range_succ, List.flatMap_append, ih, List.flatMap_singleton, Nat.succ_mul,
      List.take_add]

/-- The first pages of an answer, with `n` entries on a page, one after the other. -/
def pages (q : Query) (records : List Record) (n m : ℕ) : List Value :=
  (List.range m).flatMap fun k => ((q.withPage n (k * n)).run records).data

theorem pages_eq_take (q : Query) (records : List Record) (n m : ℕ) :
    q.pages records n m = (q.unpaged.run records).data.take (m * n) := by
  rw [← flatMap_pieces, pages]
  refine List.flatMap_congr fun k _ => ?_
  rw [run_data, page_eq]
  rfl

/-! ## Groups -/

/-- **The groups count every record once.** -/
theorem exists_counts {q : Query} {fields : List String} (hgroup : q.groupBy = some fields)
    (records : List Record) :
    ∃ counts : List ℕ,
      (q.shape records).map (Members.get? "count") = counts.map (fun n => some (.ofNat n)) ∧
      counts.sum = records.length := by
  let kept := q.projected records
  let entry (first : Record) : Record :=
    Record.groupEntry fields (Record.groupKey fields first) (Record.sharing fields first kept)
  -- the groups are sorted as the records are from which they are made
  obtain ⟨firsts, hperm, hentries, -⟩ := q.exists_arranged_map (f := entry) (g := entry)
    (Record.firsts fields kept) fun _ _ _ _ _ => rfl
  have hshape : q.shape records = firsts.map entry := by
    rw [shape_eq_withoutFind, shape_grouped hgroup, Record.group_eq, ← hentries]
  refine ⟨firsts.map fun first => (Record.sharing fields first kept).length, ?_, ?_⟩
  · rw [hshape, List.map_map, List.map_map]
    exact List.map_congr_left fun first _ => Record.get?_count_groupEntry _ _ _
  · rw [(hperm.map _).sum_eq, Record.sum_length_sharing, q.length_projected]

/-! ## Answers -/

theorem length_select (filter : Option Clause) (records : List Record) :
    (Clause.select filter records).length
      = records.countP fun r => filter.all fun clause => clause.holds r := by
  cases filter with
  | none => exact (congrFun List.countP_true records).symm
  | some clause => exact List.countP_eq_length_filter.symm

/-- **The numbers and pages of an answer fit together.**  The total is the number of records that
satisfy the filter, whatever else is asked for; the count is the number of entries, and it is at most
the total.  The entries are those of the answer without limit and offset, from the offset on and up
to the limit, and its pages of one size, one after the other, are that answer.  The groups of an
answer without limit and offset count the total. -/
theorem run_counts_and_pages (q : Query) (records : List Record) :
    let answer := q.run records
    let whole := q.unpaged.run records
    (answer.totalCount
        = (records.countP fun r => q.filter.all fun clause => clause.holds r) ∧
      ∀ p : Query, p.filter = q.filter → (p.run records).totalCount = answer.totalCount) ∧
    (answer.count = answer.data.length ∧ answer.count ≤ answer.totalCount ∧
      answer.totalCount ≤ records.length) ∧
    answer.data
      = (whole.data.drop (q.offset.getD 0)).take (q.limit.getD whole.data.length) ∧
    (∀ n m, q.pages records n m = whole.data.take (m * n)) ∧
    (∀ n, 1 ≤ n → q.pages records n whole.data.length = whole.data) ∧
    ∀ fields, q.groupBy = some fields → ∃ counts : List ℕ,
      whole.data.map (fun e => e.members?.bind (Members.get? "count"))
        = counts.map (fun n => some (.ofNat n)) ∧
      counts.sum = answer.totalCount := by
  intro answer whole
  have htotal : answer.totalCount
      = records.countP fun r => q.filter.all fun clause => clause.holds r :=
    length_select q.filter records
  have hcount : answer.count ≤ answer.totalCount := by
    show ((q.page (q.shape _)).map Value.map).length ≤ _
    rw [List.length_map]
    exact (q.length_page_le _).trans (q.length_shape_le _)
  refine ⟨⟨htotal, ?_⟩, ⟨rfl, hcount, ?_⟩, ?_, q.pages_eq_take records, ?_, ?_⟩
  · intro p hp
    show (Clause.select p.filter records).length = (Clause.select q.filter records).length
    rw [hp]
  · rw [htotal]
    exact List.countP_le_length
  · rw [← page_eq]
    exact run_data q records
  · intro n hn
    rw [pages_eq_take]
    exact List.take_of_length_le (Nat.le_mul_of_pos_right _ hn)
  · intro fields hgroup
    obtain ⟨counts, hcounts, hsum⟩ := exists_counts hgroup (Clause.select q.filter records)
    refine ⟨counts, ?_, hsum⟩
    rw [← hcounts, run_unpaged, List.map_map]
    rfl

/-- The second group of records by a field that is a number in two spellings, or missing. -/
def secondGroup : Query := ⟨none, none, some ["a"], none, some 1, some 1⟩

/-- Two pages of one group each, and a third that is empty, show all three records. -/
theorem run_counts_and_pages_secondGroup :
    secondGroup.pages Record.mixedRecords 1 3
      = (secondGroup.unpaged.run Record.mixedRecords).data.take 3 ∧
    secondGroup.pages Record.mixedRecords 1
        (secondGroup.unpaged.run Record.mixedRecords).data.length
      = (secondGroup.unpaged.run Record.mixedRecords).data ∧
    ∃ counts : List ℕ,
      (secondGroup.unpaged.run Record.mixedRecords).data.map
          (fun e => e.members?.bind (Members.get? "count"))
        = counts.map (fun n => some (.ofNat n)) ∧ counts.sum = 3 := by
  obtain ⟨-, -, -, hfirst, hpages, hcounts⟩ := run_counts_and_pages secondGroup Record.mixedRecords
  exact ⟨hfirst 1 3, hpages 1 (le_refl 1), hcounts ["a"] rfl⟩

end Query

end Logbook
