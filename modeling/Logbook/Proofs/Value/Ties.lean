import Logbook.Proofs.Value.Equality
import Logbook.Proofs.Value.Paths

/-!
# Ties in sorting

Sorting and equality look at a map in two ways.  Equality looks up each key, wherever it stands;
sorting walks through the members as they stand.  So two equal values need not tie in sorting: maps
that list their keys in another order do not.  This is the only way in which the two part.  Nothing
ties without being equal, although sorting is total and has an answer for every pair, and equal
values whose maps list their keys alike do tie.

The maps of two values that are compared with one another are those to which one path leads in both.
Where two maps list their keys alike, the first members have one key, which none of the others has,
so taking them away leaves the paths into the others as they are.  Along the members the induction
then goes as it does along the items of a list.

* `Value.SameKeyOrder`: corresponding maps list their keys in the same order.
* `Value.MapFree`: there are no maps inside.
* `Value.sameKeyOrder_cons_items`, `Value.sameKeyOrder_cons_members`: the first item or member, and
  the others.
* `Value.order_eq_iff`: what ties.
* `Value.orderOpt_ties_exactly`: the same of values in sorting, and of values without maps.
-/

namespace Logbook.Value

/-! ## The order of keys -/

/-- Holds when the maps to which a path leads in both values list their keys in the same order. -/
def SameKeyOrder (a b : Value) : Prop :=
  ∀ (path : Path) (ms ns : Members), a.resolve? path = some (map ms) →
    b.resolve? path = some (map ns) → Members.keys ms = Members.keys ns

/-- Holds of the values to no map inside which a path leads. -/
def MapFree (v : Value) : Prop := ∀ (path : Path) (ms : Members), v.resolve? path ≠ some (map ms)

theorem MapFree.sameKeyOrder {a : Value} (h : MapFree a) (b : Value) : SameKeyOrder a b :=
  fun path ms _ hms _ => absurd hms (h path ms)

/-- No path leads into a value that is neither a list nor a map. -/
theorem mapFree_of_leaf {v : Value} (hitems : v.items? = none) (hmembers : v.members? = none) :
    MapFree v := by
  intro path ms h
  cases path with
  | nil =>
    obtain rfl := Option.some.inj h
    exact absurd hmembers (by simp [members?])
  | cons step path =>
    cases v with
    | list xs => exact absurd hitems (by simp [items?])
    | map ns => exact absurd hmembers (by simp [members?])
    | _ => cases step <;> exact absurd h (by simp [resolve?])

/-! ### Lists -/

theorem mapFree_list_iff {xs : List Value} : MapFree (list xs) ↔ ∀ x ∈ xs, MapFree x := by
  constructor
  · intro h x hx path ms hms
    obtain ⟨i, hi⟩ := List.mem_iff_getElem?.1 hx
    refine h (.index i :: path) ms ?_
    rw [resolve?_cons_index, hi, Option.bind_some, hms]
  · intro h path ms hms
    cases path with
    | nil => exact absurd hms (by simp [resolve?])
    | cons step path =>
      cases step with
      | key k => exact absurd hms (by simp [resolve?])
      | index i =>
        rw [resolve?_cons_index, Option.bind_eq_some_iff] at hms
        obtain ⟨x, hx, hms⟩ := hms
        exact h x (List.mem_of_getElem? hx) path ms hms

/-- Lists have their keys in the same order if their items do, at each place. -/
theorem sameKeyOrder_list_iff {xs ys : List Value} :
    SameKeyOrder (list xs) (list ys) ↔
      ∀ (i : ℕ) (x y : Value), xs[i]? = some x → ys[i]? = some y → SameKeyOrder x y := by
  constructor
  · intro h i x y hx hy path ms ns hms hns
    refine h (.index i :: path) ms ns ?_ ?_
    · rw [resolve?_cons_index, hx, Option.bind_some, hms]
    · rw [resolve?_cons_index, hy, Option.bind_some, hns]
  · intro h path ms ns hms hns
    cases path with
    | nil => exact absurd hms (by simp [resolve?])
    | cons step path =>
      cases step with
      | key k => exact absurd hms (by simp [resolve?])
      | index i =>
        rw [resolve?_cons_index, Option.bind_eq_some_iff] at hms hns
        obtain ⟨x, hx, hms⟩ := hms
        obtain ⟨y, hy, hns⟩ := hns
        exact h i x y hx hy path ms ns hms hns

theorem sameKeyOrder_cons_items {x y : Value} {xs ys : List Value} :
    SameKeyOrder (list (x :: xs)) (list (y :: ys)) ↔
      SameKeyOrder x y ∧ SameKeyOrder (list xs) (list ys) := by
  simp only [sameKeyOrder_list_iff]
  constructor
  · intro h
    exact ⟨h 0 x y rfl rfl, fun i => h (i + 1)⟩
  · rintro ⟨hhead, htail⟩ i v w hv hw
    cases i with
    | zero =>
      obtain rfl := Option.some.inj hv
      obtain rfl := Option.some.inj hw
      exact hhead
    | succ i => exact htail i v w hv hw

/-! ### Maps -/

/-- Maps have their keys in the same order if they list them alike, and the values under each key
have theirs in the same order. -/
theorem sameKeyOrder_map_iff {ms ns : Members} :
    SameKeyOrder (map ms) (map ns) ↔ Members.keys ms = Members.keys ns ∧
      ∀ key v w, Members.get? key ms = some v → Members.get? key ns = some w →
        SameKeyOrder v w := by
  constructor
  · intro h
    refine ⟨h [] ms ns rfl rfl, fun key v w hv hw path ps qs hps hqs => ?_⟩
    refine h (.key key :: path) ps qs ?_ ?_
    · rw [resolve?_cons_key, hv, Option.bind_some, hps]
    · rw [resolve?_cons_key, hw, Option.bind_some, hqs]
  · rintro ⟨hkeys, h⟩ path ps qs hps hqs
    cases path with
    | nil =>
      obtain rfl := map.inj (Option.some.inj hps)
      obtain rfl := map.inj (Option.some.inj hqs)
      exact hkeys
    | cons step path =>
      cases step with
      | index i => exact absurd hps (by simp [resolve?])
      | key k =>
        rw [resolve?_cons_key, Option.bind_eq_some_iff] at hps hqs
        obtain ⟨v, hv, hps⟩ := hps
        obtain ⟨w, hw, hqs⟩ := hqs
        exact h k v w hv hw path ps qs hps hqs

/-- A member of a key that no other member has is taken away from both maps. -/
theorem sameKeyOrder_cons_members {k : String} {v w : Value} {ms ns : Members}
    (hms : k ∉ Members.keys ms) (hns : k ∉ Members.keys ns) :
    SameKeyOrder (map ((k, v) :: ms)) (map ((k, w) :: ns)) ↔
      SameKeyOrder v w ∧ SameKeyOrder (map ms) (map ns) := by
  have hne : ∀ {ps : Members} {key : String} {u : Value}, k ∉ Members.keys ps →
      Members.get? key ps = some u → k ≠ key := by
    rintro ps key u hps hu rfl
    exact hps (Members.mem_keys_iff.2 ⟨u, hu⟩)
  simp only [sameKeyOrder_map_iff, Members.get?_cons]
  constructor
  · rintro ⟨hkeys, h⟩
    refine ⟨h k v w (if_pos rfl) (if_pos rfl), (List.cons.inj hkeys).2, fun key v' w' hv hw => ?_⟩
    refine h key v' w' ?_ ?_
    · rw [if_neg (hne hms hv), hv]
    · rw [if_neg (hne hns hw), hw]
  · rintro ⟨hhead, hkeys, htail⟩
    refine ⟨congrArg (k :: ·) hkeys, fun key v' w' hv hw => ?_⟩
    by_cases hkey : k = key
    · rw [if_pos hkey] at hv hw
      rwa [← Option.some.inj hv, ← Option.some.inj hw]
    · rw [if_neg hkey] at hv hw
      exact htail key v' w' hv hw

/-- Members are not looked for under a key that the others do not have. -/
theorem equalMembers_cons_right {k : String} (w : Value) {ms : Members} (ns : Members)
    (hms : k ∉ Members.keys ms) : equalMembers ms ((k, w) :: ns) = equalMembers ms ns := by
  induction ms with
  | nil => rfl
  | cons m ms ih =>
    obtain ⟨l, v⟩ := m
    rw [Members.keys, List.map_cons, List.mem_cons, not_or] at hms
    rw [equalMembers, equalMembers, Members.get?_cons, if_neg hms.1, ih hms.2]

theorem equal_cons_members {k : String} {v w : Value} {ms ns : Members}
    (hms : k ∉ Members.keys ms) :
    (map ((k, v) :: ms)).equal (map ((k, w) :: ns)) = true ↔
      v.equal w = true ∧ (map ms).equal (map ns) = true := by
  rw [equal, equal, equalMembers, Members.get?_cons, if_pos rfl, equalMembers_cons_right w ns hms]
  simp only [List.length_cons, Bool.and_eq_true, beq_iff_eq, Nat.add_right_cancel_iff]
  exact and_left_comm

/-! ## Ties -/

theorem orderItems_eq_iff {xs : List Value}
    (h : ∀ x ∈ xs, ∀ y, x.WellFormed → y.WellFormed →
      (order x y = .eq ↔ x.equal y = true ∧ SameKeyOrder x y)) {ys : List Value}
    (hxs : WellFormedItems xs) (hys : WellFormedItems ys) :
    orderItems xs ys = .eq ↔ (list xs).equal (list ys) = true ∧
      SameKeyOrder (list xs) (list ys) := by
  induction xs generalizing ys with
  | nil =>
    cases ys with
    | nil => simp [orderItems, equal, equalItems, sameKeyOrder_list_iff]
    | cons y ys => simp [orderItems, equal, equalItems]
  | cons x xs ih =>
    cases ys with
    | nil => simp [orderItems, equal, equalItems]
    | cons y ys =>
      rw [List.forall_mem_cons] at h
      rw [WellFormedItems] at hxs hys
      rw [orderItems_cons, Ordering.then_eq_eq, h.1 y hxs.1 hys.1, ih h.2 hxs.2 hys.2,
        sameKeyOrder_cons_items, equal, equal, equalItems, Bool.and_eq_true]
      exact and_and_and_comm

theorem orderMembers_eq_iff {ms : Members}
    (h : ∀ m ∈ ms, ∀ w, m.2.WellFormed → w.WellFormed →
      (order m.2 w = .eq ↔ m.2.equal w = true ∧ SameKeyOrder m.2 w)) {ns : Members}
    (hms : (map ms).WellFormed) (hns : (map ns).WellFormed) :
    orderMembers ms ns = .eq ↔ (map ms).equal (map ns) = true ∧
      SameKeyOrder (map ms) (map ns) := by
  induction ms generalizing ns with
  | nil =>
    cases ns with
    | nil => simp [orderMembers, equal, equalMembers, sameKeyOrder_map_iff]
    | cons n ns => simp [orderMembers, equal]
  | cons m ms ih =>
    cases ns with
    | nil => simp [orderMembers, equal]
    | cons n ns =>
      obtain ⟨k, v⟩ := m
      obtain ⟨l, w⟩ := n
      rw [List.forall_mem_cons] at h
      rw [WellFormed, Members.keys, List.map_cons, List.nodup_cons, WellFormedMembers] at hms hns
      obtain ⟨⟨hk, hms⟩, hv, hmsw⟩ := hms
      obtain ⟨⟨hl, hns⟩, hw, hnsw⟩ := hns
      rw [orderMembers_cons, Ordering.then_eq_eq, Ordering.then_eq_eq,
        Std.LawfulEqOrd.compare_eq_iff_eq]
      by_cases hkl : k = l
      · subst hkl
        rw [h.1 w hv hw, ih h.2 ⟨hms, hmsw⟩ ⟨hns, hnsw⟩, equal_cons_members hk,
          sameKeyOrder_cons_members hk hl, and_iff_right rfl]
        exact and_and_and_comm
      · -- the maps list different keys to begin with
        refine ⟨fun htie => absurd htie.1.1 hkl, fun hsame => ?_⟩
        have hkeys := (sameKeyOrder_map_iff.1 hsame.2).1
        exact absurd (List.cons.inj hkeys).1 hkl

/-- **Values tie exactly if they are equal and their maps list their keys in the same order.** -/
theorem order_eq_iff {a b : Value} (ha : a.WellFormed) (hb : b.WellFormed) :
    order a b = .eq ↔ a.equal b = true ∧ SameKeyOrder a b := by
  have hleaf : ∀ {a b : Value}, a.items? = none → a.members? = none →
      (order a b = .eq ↔ a.equal b = true) →
      (order a b = .eq ↔ a.equal b = true ∧ SameKeyOrder a b) := by
    intro a b hitems hmembers h
    rw [h, and_iff_left ((mapFree_of_leaf hitems hmembers).sameKeyOrder b)]
  induction a using Value.induction generalizing b with
  | null => exact hleaf rfl rfl (by cases b <;> simp [order, equal, rank])
  | bool p => exact hleaf rfl rfl (by cases b <;> simp [order, equal, rank])
  | num m => exact hleaf rfl rfl (by cases b <;> simp [order, equal, rank])
  | str s => exact hleaf rfl rfl (by cases b <;> simp [order, equal, rank])
  | list xs ih =>
    cases b with
    | list ys => exact orderItems_eq_iff (fun x hx y hwx hwy => ih x hx hwx hwy) ha hb
    | _ => simp [order, equal, rank]
  | map ms ih =>
    cases b with
    | map ns => exact orderMembers_eq_iff (fun m hm w hwm hww => ih m hm hwm hww) ha hb
    | _ => simp [order, equal, rank]

/-- **Exactly when values tie in sorting.**  They tie if they are equal and corresponding maps in
them list their keys in the same order, and not otherwise.  Where there are no maps, sorting and
equality agree. -/
theorem orderOpt_ties_exactly :
    (∀ a b : Value, a.WellFormed → b.WellFormed →
      (orderOpt (some a) (some b) = .eq ↔ a.equal b = true ∧ SameKeyOrder a b)) ∧
    ∀ a b : Value, a.WellFormed → b.WellFormed → MapFree a →
      (orderOpt (some a) (some b) = .eq ↔ a.equal b = true) := by
  have hties : ∀ a b : Value, a.WellFormed → b.WellFormed →
      (orderOpt (some a) (some b) = .eq ↔ a.equal b = true ∧ SameKeyOrder a b) := by
    intro a b ha hb
    exact order_eq_iff ha hb
  refine ⟨hties, fun a b ha hb hfree => ?_⟩
  rw [hties a b ha hb, and_iff_left (hfree.sameKeyOrder b)]

/-- Equal maps with their members turned around do not tie; equal lists without maps do. -/
theorem orderOpt_ties_exactly_turnedMap :
    plainMap.equal turnedMap = true ∧ orderOpt (some plainMap) (some turnedMap) ≠ .eq ∧
    orderOpt (some (.list [.num (.int 0), .str "a"]))
      (some (.list [.num (.float (.zero true)), .str "a"])) = .eq := by
  obtain ⟨hties, hfree⟩ := orderOpt_ties_exactly
  refine ⟨by decide +kernel, fun htie => ?_, ?_⟩
  · have hsame := ((hties _ _ wellFormed_plainMap wellFormed_turnedMap).1 htie).2
    exact absurd (hsame [] _ _ rfl rfl) (by decide)
  · refine (hfree _ _ ?_ ?_ ?_).2 (by decide +kernel)
    · simp [WellFormed, WellFormedItems, Number.InRange, Double.wordFloor, Double.wordCeil]
    · simp [WellFormed, WellFormedItems, Number.InRange]
    · rw [mapFree_list_iff, List.forall_mem_cons, List.forall_mem_singleton]
      exact ⟨mapFree_of_leaf rfl rfl, mapFree_of_leaf rfl rfl⟩

end Logbook.Value
