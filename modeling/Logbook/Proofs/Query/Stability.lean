import Logbook.Proofs.Query.Sorting

/-!
# Stable sorting by several keys

Whoever sorts by one column and then by another expects the first order to show wherever the second
leaves entries side by side.  That is what a stable sort gives, and it is why a list of keys may be
taken apart: to sort by all of them is to sort by the last ones first.

A stable sort has only one outcome.  Which of two entries stands first is decided by the order where
they differ, and by the places they came from where they tie, so it does not matter by which method
the list is sorted.  The places are kept in mind through the ties of each entry: the sublist of all
that tie with it is the same before and after.  In this form a list may hold an entry twice.

All of this needs the order to be total, whatever values the fields hold: `Record.orderBy` is, for
every list of keys (`Proofs.Query.Sorting`).

* `IsStableSort`: a list is another one, stably sorted.
* `IsStableSort.unique`: there is one such list.
* `IsStableSort.comp`: sorting twice is sorting once by both orders.
* `Record.sort_eq_iff_isStableSort`: `Record.sort` is the stable sort, and what follows from it.
-/

namespace Logbook

/-! ## Stably sorted lists -/

/-- The part of a list that ties with a thing, in the order of the list. -/
def tiesWith {α : Type} (cmp : α → α → Ordering) (a : α) (xs : List α) : List α :=
  xs.filter fun x => cmp a x == .eq

/-- Holds when a list is another one, stably sorted: it has the same things, nothing in it stands
behind something greater, and things that tie stand in the order in which they stood. -/
structure IsStableSort {α : Type} (cmp : α → α → Ordering) (xs ys : List α) : Prop where
  perm : ys.Perm xs
  pairwise : ys.Pairwise fun a b => (cmp a b).isLE = true
  ties : ∀ a, tiesWith cmp a ys = tiesWith cmp a xs

section Ties

variable {α : Type} {cmp cmp₁ cmp₂ : α → α → Ordering} {a x : α} {xs ys zs : List α}

theorem mem_tiesWith_iff : x ∈ tiesWith cmp a xs ↔ x ∈ xs ∧ cmp a x = .eq := by
  rw [tiesWith, List.mem_filter, beq_iff_eq]

theorem tiesWith_cons_of_eq (h : cmp a x = .eq) (xs : List α) :
    tiesWith cmp a (x :: xs) = x :: tiesWith cmp a xs :=
  List.filter_cons_of_pos (beq_iff_eq.2 h)

theorem tiesWith_cons_of_ne (h : cmp a x ≠ .eq) (xs : List α) :
    tiesWith cmp a (x :: xs) = tiesWith cmp a xs :=
  List.filter_cons_of_neg (mt beq_iff_eq.1 h)

/-- Things that tie in two orders, one after the other, are what ties in both. -/
theorem tiesWith_compareLex (a : α) (xs : List α) :
    tiesWith (compareLex cmp₁ cmp₂) a xs = tiesWith cmp₁ a (tiesWith cmp₂ a xs) := by
  rw [tiesWith, tiesWith, tiesWith, List.filter_filter]
  refine List.filter_congr fun x _ => ?_
  rw [Bool.eq_iff_iff, Bool.and_eq_true, beq_iff_eq, beq_iff_eq, beq_iff_eq, compareLex_eq_eq]

theorem tiesWith_tiesWith (a : α) (xs : List α) :
    tiesWith cmp a (tiesWith cmp a xs) = tiesWith cmp a xs :=
  List.filter_eq_self.2 fun _ hx => (List.mem_filter.1 hx).2

theorem tiesWith_comm (a : α) (xs : List α) :
    tiesWith cmp₁ a (tiesWith cmp₂ a xs) = tiesWith cmp₂ a (tiesWith cmp₁ a xs) := by
  rw [tiesWith, tiesWith, tiesWith, tiesWith, List.filter_comm]

section Total

variable [Std.TransCmp cmp]

theorem mem_of_tiesWith_eq (h : ∀ a, tiesWith cmp a xs = tiesWith cmp a ys) (hx : x ∈ xs) :
    x ∈ ys := by
  have hself : x ∈ tiesWith cmp x xs := mem_tiesWith_iff.2 ⟨hx, Std.ReflCmp.compare_self⟩
  rw [h] at hself
  exact (mem_tiesWith_iff.1 hself).1

theorem isLE_of_mem_of_pairwise (h : (x :: xs).Pairwise fun a b => (cmp a b).isLE = true)
    (ha : a ∈ x :: xs) : (cmp x a).isLE = true := by
  rcases List.mem_cons.1 ha with rfl | ha
  · rw [@Std.ReflCmp.compare_self _ cmp]
    rfl
  · exact List.rel_of_pairwise_cons h ha

/-- **A sorted list is known by its ties.**  The first things of two such lists are least in both, so
they tie, and then each is the first of its ties. -/
theorem eq_of_tiesWith_eq (hxs : xs.Pairwise fun a b => (cmp a b).isLE = true)
    (hys : ys.Pairwise fun a b => (cmp a b).isLE = true)
    (h : ∀ a, tiesWith cmp a xs = tiesWith cmp a ys) : xs = ys := by
  induction xs generalizing ys with
  | nil =>
    refine (List.eq_nil_iff_forall_not_mem.2 fun y hy => ?_).symm
    exact List.not_mem_nil (mem_of_tiesWith_eq (fun a => (h a).symm) hy)
  | cons x xs ih =>
    cases ys with
    | nil => exact absurd (mem_of_tiesWith_eq h List.mem_cons_self) List.not_mem_nil
    | cons y ys =>
      have hxy : (cmp x y).isLE = true := isLE_of_mem_of_pairwise hxs
        (mem_of_tiesWith_eq (fun a => (h a).symm) List.mem_cons_self)
      have hyx : (cmp y x).isLE = true := isLE_of_mem_of_pairwise hys
        (mem_of_tiesWith_eq h List.mem_cons_self)
      have hfirst := h x
      rw [tiesWith_cons_of_eq Std.ReflCmp.compare_self,
        tiesWith_cons_of_eq (Std.OrientedCmp.isLE_antisymm hxy hyx)] at hfirst
      obtain rfl := (List.cons.inj hfirst).1
      rw [ih hxs.of_cons hys.of_cons fun a => ?_]
      have hties := h a
      by_cases ha : cmp a x = .eq
      · rw [tiesWith_cons_of_eq ha, tiesWith_cons_of_eq ha] at hties
        exact (List.cons.inj hties).2
      · rwa [tiesWith_cons_of_ne ha, tiesWith_cons_of_ne ha] at hties

end Total

namespace IsStableSort

/-- **There is only one stable sort of a list.** -/
theorem unique [Std.TransCmp cmp] (hys : IsStableSort cmp xs ys) (hzs : IsStableSort cmp xs zs) :
    ys = zs :=
  eq_of_tiesWith_eq hys.pairwise hzs.pairwise fun a => (hys.ties a).trans (hzs.ties a).symm

/-- What goes up is sorted as it stands. -/
theorem of_pairwise (h : xs.Pairwise fun a b => (cmp a b).isLE = true) : IsStableSort cmp xs xs :=
  ⟨.refl xs, h, fun _ => rfl⟩

/-- **Sorting by one order after another is sorting by both**, the later one first. -/
theorem comp [Std.TransCmp cmp₁] [Std.TransCmp cmp₂] (h₂ : IsStableSort cmp₂ xs ys)
    (h₁ : IsStableSort cmp₁ ys zs) : IsStableSort (compareLex cmp₁ cmp₂) xs zs where
  perm := h₁.perm.trans h₂.perm
  pairwise := by
    rw [List.pairwise_iff_forall_sublist]
    intro a b hab
    have hle : (cmp₁ a b).isLE = true := List.pairwise_iff_forall_sublist.1 h₁.pairwise hab
    rw [compareLex, Ordering.isLE_then_iff_or]
    rcases Ordering.isLE_iff_eq_lt_or_eq_eq.1 hle with hlt | heq
    · exact Or.inl hlt
    · -- things that tie stand as the earlier sort has left them
      refine Or.inr ⟨heq, ?_⟩
      have hties : [a, b].Sublist (tiesWith cmp₁ a zs) := by
        have hfilter := hab.filter fun x => cmp₁ a x == .eq
        rwa [List.filter_eq_self.2 (by simp [heq, @Std.ReflCmp.compare_self _ cmp₁])] at hfilter
      rw [h₁.ties] at hties
      exact List.pairwise_iff_forall_sublist.1 (h₂.pairwise.filter _) hties
  ties a := by
    rw [tiesWith_compareLex, tiesWith_comm, h₁.ties, tiesWith_comm, h₂.ties, tiesWith_compareLex]

end IsStableSort

end Ties

/-! ## Sorted entries -/

namespace Record

/-- A list of keys orders by its first part, and by the rest where that ties. -/
theorem orderBy_append (first later : List OrderKey) :
    orderBy (first ++ later) = compareLex (orderBy first) (orderBy later) := by
  funext a b
  rw [compareLex]
  induction first with
  | nil => rfl
  | cons key first ih => rw [List.cons_append, orderBy_cons, orderBy_cons, ih, Ordering.then_assoc]

/-- Sorting leaves entries that tie in their order. -/
theorem tiesWith_sort (keys : List OrderKey) (a : Record) (entries : List Record) :
    tiesWith (orderBy keys) a (sort keys entries) = tiesWith (orderBy keys) a entries := by
  have hties : (tiesWith (orderBy keys) a entries).Pairwise
      fun b c => (orderBy keys b c).isLE = true := by
    refine List.pairwise_of_forall_mem_list fun b hb c hc => ?_
    rw [← Std.TransCmp.congr_left (mem_tiesWith_iff.1 hb).2, (mem_tiesWith_iff.1 hc).2]
    rfl
  have hsublist : (tiesWith (orderBy keys) a entries).Sublist (sort keys entries) := by
    unfold sort
    simp only [Members.ne_gt_eq_isLE]
    exact List.sublist_mergeSort (fun b c d => Std.TransCmp.isLE_trans) Members.isLE_or_isLE hties
      List.filter_sublist
  have hfilter : (tiesWith (orderBy keys) a (tiesWith (orderBy keys) a entries)).Sublist
      (tiesWith (orderBy keys) a (sort keys entries)) := hsublist.filter _
  rw [tiesWith_tiesWith] at hfilter
  exact (hfilter.eq_of_length ((perm_sort keys entries).filter _).length_eq.symm).symm

theorem isStableSort_sort (keys : List OrderKey) (entries : List Record) :
    IsStableSort (orderBy keys) entries (sort keys entries) :=
  ⟨perm_sort keys entries, pairwise_sort keys entries, fun a => tiesWith_sort keys a entries⟩

/-- **Sorting is the stable sort by several keys.**  Every list of keys orders all entries, and the
sorted list is the one stable sort by this order.  So sorting again changes nothing, and sorting by
some keys and then others is sorting by the later keys after the earlier ones. -/
theorem sort_eq_iff_isStableSort :
    (∀ keys, Std.TransCmp (orderBy keys)) ∧
    (∀ keys entries sorted,
      sorted = sort keys entries ↔ IsStableSort (orderBy keys) entries sorted) ∧
    (∀ keys entries, sort keys (sort keys entries) = sort keys entries) ∧
    ∀ first later entries, sort (first ++ later) entries = sort first (sort later entries) := by
  refine ⟨?_, ?_, ?_, ?_⟩
  · intro keys
    infer_instance
  · intro keys entries sorted
    constructor
    · rintro rfl
      exact isStableSort_sort keys entries
    · intro h
      exact h.unique (isStableSort_sort keys entries)
  · intro keys entries
    have hsorted := pairwise_sort keys entries
    exact (isStableSort_sort keys _).unique (.of_pairwise hsorted)
  · intro first later entries
    have hparts := (isStableSort_sort later entries).comp (isStableSort_sort first _)
    rw [← orderBy_append] at hparts
    exact (isStableSort_sort (first ++ later) entries).unique hparts

/-- Downwards too, entries that tie keep their order; a field that is missing in both makes a tie. -/
example : sort [⟨"a", .desc⟩, ⟨"b", .asc⟩]
    [[("a", .num (.int 1)), ("c", .null)], [("a", .num (.int 1))], [("a", .num (.int 2))]]
      = [[("a", .num (.int 2))], [("a", .num (.int 1)), ("c", .null)], [("a", .num (.int 1))]] := by
  cbv

end Record

end Logbook
