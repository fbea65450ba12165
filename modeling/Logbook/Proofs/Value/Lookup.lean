import Logbook.Proofs.Value.Members

/-!
# Look-ups

A name without a dot is a key and nothing else.  A name with dots may be a key too, and if it is none
it is a path: its first segment, which has no dot, is a key, and the others lead on from the value
there.  So a look-up depends on two members of a record at most, that of the name and that of its
first segment.

A record to which texts are added keeps its look-ups.  An added key may well be the first segment of a
longer name, but no path goes on from a text.

* `Value.follow_cons`, `Record.lookup_eq`: paths and look-ups as chains of optional values.
* `Field.exists_segments`: the first segment of a dotted name.
* `Record.lookup_of_not_dotted`, `Record.lookup_of_dotted`: the two members on which a look-up depends.
* `Record.lookup_append_of_ne`, `Record.lookup_append_of_found`: look-ups after texts were added.
-/

namespace Logbook

/-! ## Paths -/

theorem Value.follow_cons (key : String) (path : List String) (v : Value) :
    follow (key :: path) v = v.members?.bind fun ms => (Members.get? key ms).bind (follow path) := by
  cases v with
  | map ms =>
    rw [follow]
    show _ = (Members.get? key ms).bind (follow path)
    cases Members.get? key ms <;> rfl
  | _ => rfl

/-! ## Segments -/

namespace Field

theorem split_cons_of_ne {c : Char} (h : c ≠ '.') {rest part : List Char}
    {parts : List (List Char)} (hrest : split rest = part :: parts) :
    split (c :: rest) = (c :: part) :: parts := by
  rw [split, if_neg h, hrest]

theorem exists_split (cs : List Char) : ∃ part parts, split cs = part :: parts := by
  induction cs with
  | nil => exact ⟨[], [], rfl⟩
  | cons c rest ih =>
    by_cases hc : c = '.'
    · exact ⟨[], split rest, by rw [split, if_pos hc]⟩
    · obtain ⟨part, parts, hrest⟩ := ih
      exact ⟨c :: part, parts, split_cons_of_ne hc hrest⟩

/-- No part has a dot. -/
theorem not_mem_of_mem_split {cs part : List Char} (h : part ∈ split cs) : '.' ∉ part := by
  induction cs generalizing part with
  | nil =>
    rw [List.mem_singleton.1 h]
    exact List.not_mem_nil
  | cons c rest ih =>
    by_cases hc : c = '.'
    · rw [split, if_pos hc, List.mem_cons] at h
      rcases h with rfl | h
      · exact List.not_mem_nil
      · exact ih h
    · obtain ⟨first, parts, hrest⟩ := exists_split rest
      rw [split_cons_of_ne hc hrest, List.mem_cons] at h
      rw [hrest] at ih
      rcases h with rfl | h
      · rw [List.mem_cons, not_or]
        exact ⟨Ne.symm hc, ih List.mem_cons_self⟩
      · exact ih (List.mem_cons_of_mem _ h)

/-- A dot makes at least two parts. -/
theorem exists_split_of_mem {cs : List Char} (h : '.' ∈ cs) :
    ∃ part next parts, split cs = part :: next :: parts := by
  induction cs with
  | nil => exact absurd h List.not_mem_nil
  | cons c rest ih =>
    by_cases hc : c = '.'
    · obtain ⟨next, parts, hrest⟩ := exists_split rest
      exact ⟨[], next, parts, by rw [split, if_pos hc, hrest]⟩
    · obtain ⟨part, next, parts, hrest⟩ := ih ((List.mem_cons.1 h).resolve_left (Ne.symm hc))
      exact ⟨c :: part, next, parts, split_cons_of_ne hc hrest⟩

/-- A dotted name has a first segment without a dot, and a second one. -/
theorem exists_segments {field : String} (h : '.' ∈ field.toList) :
    ∃ first next path, segments field = first :: next :: path ∧ '.' ∉ first.toList := by
  obtain ⟨part, next, parts, hsplit⟩ := exists_split_of_mem h
  have hpart : '.' ∉ part := not_mem_of_mem_split (by rw [hsplit]; exact List.mem_cons_self)
  refine ⟨String.ofList part, String.ofList next, parts.map String.ofList, ?_, ?_⟩
  · rw [segments, hsplit, List.map_cons, List.map_cons]
  · rwa [String.toList_ofList]

end Field

/-! ## Fields of a record -/

namespace Record

theorem lookup_eq (record : Record) (field : String) :
    record.lookup field = (Members.get? field record).or
      (if '.' ∈ field.toList then Value.follow (Field.segments field) (.map record) else none) := by
  rw [lookup]
  cases Members.get? field record <;> rfl

/-- A name without a dot is a key. -/
theorem lookup_of_not_dotted {field : String} (h : '.' ∉ field.toList) (record : Record) :
    record.lookup field = Members.get? field record := by
  rw [lookup_eq, if_neg h, Option.or_none]

/-- A name with a dot is a key, or leads on from what its first segment stands for. -/
theorem lookup_of_dotted {field first next : String} {path : List String} (h : '.' ∈ field.toList)
    (hsegments : Field.segments field = first :: next :: path) (record : Record) :
    record.lookup field = (Members.get? field record).or
      ((Members.get? first record).bind (Value.follow (next :: path))) := by
  rw [lookup_eq, if_pos h, hsegments, Value.follow_cons]
  rfl

section Append

variable {record more : Record} {field : String} (htexts : ∀ m ∈ more, ∃ s, m.2 = .str s)
include htexts

/-- Added texts change no look-up of other names. -/
theorem lookup_append_of_ne (hfield : field ∉ Members.keys more) :
    lookup (record ++ more) field = record.lookup field := by
  have hnone : Members.get? field more = none := by
    rw [Option.eq_none_iff_forall_ne_some]
    exact fun v hv => hfield (Members.mem_keys_iff.2 ⟨v, hv⟩)
  by_cases hdot : '.' ∈ field.toList
  · obtain ⟨first, next, path, hsegments, -⟩ := Field.exists_segments hdot
    rw [lookup_of_dotted hdot hsegments, lookup_of_dotted hdot hsegments, Members.get?_append,
      Members.get?_append, hnone, Option.or_none]
    cases Members.get? first record with
    | some v => rfl
    | none =>
      -- a path that goes on from an added text leads nowhere, as it did without the text
      cases htext : Members.get? first more with
      | none => rfl
      | some v =>
        obtain ⟨s, hs⟩ := htexts _ (Members.mem_of_get? htext)
        obtain rfl : v = .str s := hs
        rfl
  · rw [lookup_of_not_dotted hdot, lookup_of_not_dotted hdot, Members.get?_append, hnone,
      Option.or_none]

/-- **What was found is found as before**, when the added texts have names without dots. -/
theorem lookup_append_of_found (hnames : ∀ key ∈ Members.keys more, '.' ∉ key.toList) {v : Value}
    (h : record.lookup field = some v) : lookup (record ++ more) field = some v := by
  by_cases hfield : field ∈ Members.keys more
  · rw [lookup_of_not_dotted (hnames field hfield)] at h ⊢
    rw [Members.get?_append, h, Option.some_or]
  · rw [lookup_append_of_ne htexts hfield, h]

end Append

end Record

end Logbook
