import Logbook.Value.Lookup
import Mathlib.Data.List.Induction

/-!
# Members under their keys

A map is read through `Members.get?` and changed through `Members.insert`, and everything said later
about maps is said through these two.

* `Members.mem_keys_iff`, `Members.get?_eq_some_iff`: what is under a key, as membership.
* `Members.search_eq`: a search for a key, as a look at what is under it.
* `Members.get?_insert_self`, `Members.get?_insert_of_ne`: what setting a key changes.
* `Members.get?_ofList`: the members of a map that was built from pairs.
* `Members.ofList_map`: such a map, with its keys in the order in which they first come.
* `Members.mem_keys_insert`, `Members.nodup_keys_insert`: the keys after setting one.
* `Value.wellFormedItems_iff`, `Value.wellFormedMembers_iff`: well-formedness, part by part.
* `Record.wellFormed_of_lookup`: a field of a well-formed record has a well-formed value.
-/

namespace Logbook

namespace Members

variable {key k : String} {v : Value}

/-! ## What is under a key -/

theorem mem_of_get? : ∀ {ms : Members}, get? key ms = some v → (key, v) ∈ ms
  | (k, w) :: ms, h => by
    rw [get?_cons] at h
    by_cases hk : k = key
    · rw [if_pos hk] at h
      rw [← hk, ← Option.some.inj h]
      exact List.mem_cons_self
    · rw [if_neg hk] at h
      exact List.mem_cons_of_mem _ (mem_of_get? h)

/-- A key is there exactly if there is a value under it. -/
theorem mem_keys_iff : ∀ {ms : Members}, key ∈ keys ms ↔ ∃ v, get? key ms = some v
  | [] => ⟨fun h => absurd h List.not_mem_nil, fun ⟨_, h⟩ => absurd h (by simp)⟩
  | (k, w) :: ms => by
    rw [keys, List.map_cons, List.mem_cons, get?_cons]
    by_cases hk : k = key
    · rw [if_pos hk]
      exact ⟨fun _ => ⟨w, rfl⟩, fun _ => Or.inl hk.symm⟩
    · rw [if_neg hk]
      refine ⟨?_, fun h => Or.inr (mem_keys_iff.2 h)⟩
      rintro (h | h)
      · exact absurd h.symm hk
      · exact mem_keys_iff.1 h

theorem has_iff {ms : Members} : has key ms = true ↔ key ∈ keys ms := by
  rw [has, Option.isSome_iff_exists, mem_keys_iff]

theorem mem_keys_of_mem {ms : Members} (h : (key, v) ∈ ms) : key ∈ keys ms :=
  List.mem_map_of_mem h

/-- Where no key is written twice, what is under a key is what stands there. -/
theorem get?_eq_some_iff : ∀ {ms : Members}, (keys ms).Nodup →
    (get? key ms = some v ↔ (key, v) ∈ ms)
  | [], _ => ⟨fun h => absurd h (by simp), fun h => absurd h List.not_mem_nil⟩
  | (k, w) :: ms, hkeys => by
    rw [keys, List.map_cons, List.nodup_cons] at hkeys
    refine ⟨mem_of_get?, fun h => ?_⟩
    rw [get?_cons]
    rcases List.mem_cons.1 h with h | h
    · obtain ⟨rfl, rfl⟩ := Prod.mk.inj h
      rw [if_pos rfl]
    · have hne : k ≠ key := fun hk => hkeys.1 (hk ▸ mem_keys_of_mem h)
      rw [if_neg hne]
      exact (get?_eq_some_iff hkeys.2).2 h

/-- What is under a key in one map after another is in the first that has the key. -/
theorem get?_append (key : String) :
    ∀ ms ns : Members, get? key (ms ++ ns) = (get? key ms).or (get? key ns)
  | [], ns => rfl
  | (k, v) :: ms, ns => by
    rw [List.cons_append, get?_cons, get?_cons, get?_append key ms ns]
    by_cases hk : k = key
    · rw [if_pos hk, if_pos hk, Option.some_or]
    · rw [if_neg hk, if_neg hk]

/-- A search that goes through the members for a key depends on what is under the key. -/
theorem search_eq {α : Type} {search : Members → α} {absent : α} {found : Value → α}
    (hnil : search [] = absent)
    (hcons : ∀ k v ms, search ((k, v) :: ms) = if k = key then found v else search ms)
    (ms : Members) : search ms = (get? key ms).elim absent found := by
  induction ms with
  | nil => rw [hnil, get?_nil, Option.elim_none]
  | cons m ms ih =>
    obtain ⟨k, v⟩ := m
    rw [hcons, get?_cons, ih]
    by_cases hk : k = key
    · rw [if_pos hk, if_pos hk, Option.elim_some]
    · rw [if_neg hk, if_neg hk]

/-! ## Setting a key -/

/-- A new key goes to the end. -/
theorem insert_of_not_mem (v : Value) :
    ∀ {ms : Members}, key ∉ keys ms → insert key v ms = ms ++ [(key, v)]
  | [], _ => rfl
  | (k, w) :: ms, h => by
    rw [keys, List.map_cons, List.mem_cons, not_or] at h
    rw [insert, if_neg (fun hk => h.1 hk.symm), insert_of_not_mem v h.2, List.cons_append]

/-- A key that has the value already changes nothing. -/
theorem insert_of_get? : ∀ {ms : Members}, get? key ms = some v → insert key v ms = ms
  | [], h => absurd h (by simp)
  | (k, w) :: ms, h => by
    rw [get?_cons] at h
    rw [insert]
    by_cases hk : k = key
    · rw [if_pos hk] at h ⊢
      rw [Option.some.inj h]
    · rw [if_neg hk] at h ⊢
      rw [insert_of_get? h]

theorem get?_insert_self (key : String) (v : Value) :
    ∀ ms : Members, get? key (insert key v ms) = some v
  | [] => by rw [insert, get?_cons, if_pos rfl]
  | (k, w) :: ms => by
    rw [insert]
    by_cases hk : k = key
    · rw [if_pos hk, get?_cons, if_pos hk]
    · rw [if_neg hk, get?_cons, if_neg hk, get?_insert_self key v ms]

/-- The members under other keys stay. -/
theorem get?_insert_of_ne (hkey : k ≠ key) (v : Value) :
    ∀ ms : Members, get? key (insert k v ms) = get? key ms
  | [] => by rw [insert, get?_cons, if_neg hkey]
  | (l, w) :: ms => by
    rw [insert]
    by_cases hl : l = k
    · have hlk : l ≠ key := fun h => hkey (hl ▸ h)
      rw [if_pos hl, get?_cons, get?_cons, if_neg hlk, if_neg hlk]
    · rw [if_neg hl, get?_cons, get?_cons, get?_insert_of_ne hkey v ms]

/-- Pairs that agree on the value of each key can be set in any order. -/
theorem get?_foldl_insert (φ : String → Value) :
    ∀ (pairs : List (String × Value)) (ms : Members), (∀ p ∈ pairs, p.2 = φ p.1) →
    get? key (pairs.foldl (fun ms p => insert p.1 p.2 ms) ms)
      = if key ∈ keys pairs then some (φ key) else get? key ms
  | [], ms, _ => by rw [List.foldl_nil, if_neg (show key ∉ keys [] from List.not_mem_nil)]
  | (k, v) :: pairs, ms, h => by
    rw [List.foldl_cons, get?_foldl_insert φ pairs _ fun p hp => h p (List.mem_cons_of_mem _ hp)]
    have hv : v = φ k := h _ List.mem_cons_self
    have hmem : key ∈ keys ((k, v) :: pairs) ↔ key = k ∨ key ∈ keys pairs := List.mem_cons
    by_cases hp : key ∈ keys pairs
    · rw [if_pos hp, if_pos (hmem.2 (Or.inr hp))]
    · rw [if_neg hp]
      by_cases hk : key = k
      · rw [if_pos (hmem.2 (Or.inl hk)), hk, get?_insert_self, hv]
      · rw [if_neg (fun hm => (hmem.1 hm).elim hk hp), get?_insert_of_ne (Ne.symm hk)]

/-- Each key of a map that was built from pairs has the value that the pairs give it. -/
theorem get?_ofList {φ : String → Value} {pairs : List (String × Value)}
    (h : ∀ p ∈ pairs, p.2 = φ p.1) :
    get? key (ofList pairs) = if key ∈ keys pairs then some (φ key) else none :=
  get?_foldl_insert φ pairs [] h

theorem mem_keys_insert {key k : String} {v : Value} :
    ∀ {ms : Members}, k ∈ keys (insert key v ms) → k = key ∨ k ∈ keys ms
  | [], h => Or.inl (List.mem_singleton.1 h)
  | (l, w) :: ms, h => by
    rw [insert] at h
    split at h
    · exact Or.inr h
    · rcases List.mem_cons.1 h with h | h
      · exact Or.inr (h ▸ List.mem_cons_self)
      · exact (mem_keys_insert h).imp_right (List.mem_cons_of_mem l)

/-- Setting a key writes no key twice. -/
theorem nodup_keys_insert (key : String) (v : Value) :
    ∀ {ms : Members}, (keys ms).Nodup → (keys (insert key v ms)).Nodup
  | [], _ => List.pairwise_singleton _ key
  | (l, w) :: ms, h => by
    rw [insert]
    split
    · exact h
    · rename_i hl
      rw [keys, List.map_cons, List.nodup_cons] at h ⊢
      refine ⟨fun hmem => ?_, nodup_keys_insert key v h.2⟩
      exact (mem_keys_insert hmem).elim hl h.1

theorem mem_insert {key : String} {v : Value} {m : String × Value} :
    ∀ {ms : Members}, m ∈ insert key v ms → m.2 = v ∨ m ∈ ms
  | [], h => Or.inl (congrArg Prod.snd (List.mem_singleton.1 h))
  | (l, w) :: ms, h => by
    rw [insert] at h
    split at h
    · rcases List.mem_cons.1 h with h | h
      · exact Or.inl (congrArg Prod.snd h)
      · exact Or.inr (List.mem_cons_of_mem _ h)
    · rcases List.mem_cons.1 h with h | h
      · exact Or.inr (h ▸ List.mem_cons_self)
      · exact (mem_insert h).imp_right (List.mem_cons_of_mem _)

/-- A map that gives each key its value has the keys in the order in which they first come. -/
theorem ofList_map (φ : String → Value) (ks : List String) :
    ofList (ks.map fun k => (k, φ k)) = ks.eraseDups.map fun k => (k, φ k) := by
  induction ks using List.reverseRecOn with
  | nil => rfl
  | append_singleton ks key ih =>
    have hsnoc : ofList ((ks ++ [key]).map fun k => (k, φ k))
        = insert key (φ key) (ofList (ks.map fun k => (k, φ k))) := by
      rw [ofList, List.map_append, List.foldl_append]
      rfl
    have hkeys : ∀ ks : List String, keys (ks.map fun k => (k, φ k)) = ks := by
      intro ks
      rw [keys, List.map_map]
      exact List.map_id ks
    rw [hsnoc, List.eraseDups_append, List.map_append, ← ih]
    by_cases hkey : key ∈ ks
    · have hvalue : ∀ p ∈ ks.map (fun k => (k, φ k)), p.2 = φ p.1 := by simp
      rw [insert_of_get? (by rw [get?_ofList hvalue, hkeys, if_pos hkey])]
      simp [List.removeAll, hkey]
    · rw [insert_of_not_mem _ (by rwa [ih, hkeys, List.mem_eraseDups])]
      simp [List.removeAll, hkey, List.eraseDups_cons]

/-- A map that was built from pairs has no other keys than theirs. -/
theorem mem_keys_ofList {key : String} {pairs : List (String × Value)}
    (h : key ∈ keys (ofList pairs)) : key ∈ keys pairs := by
  have hfold : ∀ {pairs : List (String × Value)} {ms : Members},
      key ∈ keys (pairs.foldl (fun ms p => insert p.1 p.2 ms) ms) →
        key ∈ keys ms ∨ key ∈ keys pairs := by
    intro pairs
    induction pairs with
    | nil => exact Or.inl
    | cons p pairs ih =>
      intro ms h
      rcases ih h with h | h
      · rcases mem_keys_insert h with rfl | h
        · exact Or.inr List.mem_cons_self
        · exact Or.inl h
      · exact Or.inr (List.mem_cons_of_mem _ h)
  exact (hfold h).resolve_left List.not_mem_nil

end Members

/-! ## Well-formed parts -/

namespace Value

theorem wellFormedItems_iff : ∀ {xs : List Value}, WellFormedItems xs ↔ ∀ x ∈ xs, x.WellFormed
  | [] => by
    rw [WellFormedItems]
    exact ⟨fun _ x h => absurd h List.not_mem_nil, fun _ => trivial⟩
  | x :: xs => by
    rw [WellFormedItems, wellFormedItems_iff, List.forall_mem_cons]

theorem wellFormedMembers_iff :
    ∀ {ms : Members}, WellFormedMembers ms ↔ ∀ m ∈ ms, m.2.WellFormed
  | [] => by
    rw [WellFormedMembers]
    exact ⟨fun _ m h => absurd h List.not_mem_nil, fun _ => trivial⟩
  | (k, v) :: ms => by
    rw [WellFormedMembers, wellFormedMembers_iff, List.forall_mem_cons]

/-- What a well-formed map holds under a key is well formed. -/
theorem WellFormed.get? {ms : Members} (h : (Value.map ms).WellFormed) {key : String} {v : Value}
    (hv : Members.get? key ms = some v) : v.WellFormed := by
  rw [WellFormed, wellFormedMembers_iff] at h
  exact h.2 _ (Members.mem_of_get? hv)

/-- A path through well-formed maps ends at a well-formed value. -/
theorem WellFormed.follow {path : List String} {v w : Value} (hv : v.WellFormed)
    (h : Value.follow path v = some w) : w.WellFormed := by
  induction path generalizing v with
  | nil =>
    rw [Value.follow] at h
    rw [← Option.some.inj h]
    exact hv
  | cons key path ih =>
    unfold Value.follow at h
    split at h
    · exact absurd ‹_ = []› (by simp)
    · rename_i hpath
      obtain ⟨rfl, rfl⟩ := List.cons.inj hpath
      split at h
      · rename_i inner hinner
        exact ih (hv.get? hinner) h
      · exact absurd h (by simp)
    · exact absurd h (by simp)

end Value

theorem Record.wellFormed_of_lookup {record : Record} (hrecord : (Value.map record).WellFormed)
    {field : String} {v : Value} (h : record.lookup field = some v) : v.WellFormed := by
  unfold Record.lookup at h
  split at h
  · rename_i w hw
    rw [← Option.some.inj h]
    exact hrecord.get? hw
  · split at h
    · exact hrecord.follow h
    · exact absurd h (by simp)

end Logbook
