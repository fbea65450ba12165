import Logbook.Proofs.Query.Grammar
import Logbook.Query.Wire

/-!
# Clauses read by their shape

The reader of clauses takes the first shape that fits.  A map with exactly the keys of one shape fits
no other, whatever stands under these keys, and so a reader that tries the shapes in another order
reads the same clause.  Both the clauses of the grammar and those that were written by the program
are such maps.

* `Clause.ofShape?`, `Clause.IsReader`: reading by one shape, and readers that try them in some
  order.
* `Clause.isReader_ofValue?`: the reader at hand is one of them.
* `Clause.IsReader.map_eq`, `Clause.IsReader.eq_ofValue?`: the order does not matter.
-/

namespace Logbook

/-! ## Reading by shape -/

/-- The shapes in the order in which the reader tries them. -/
def Shape.all : List Shape := [condition, conj, disj, neg]

namespace Clause

/-- Reads a list of clauses, each by `read`. -/
def ofListBy? (read : Value → Option Clause) : Value → Option (List Clause)
  | .list xs => xs.mapM read
  | _ => none

/-- Reads a value as a clause of one shape; the clauses in it are read by `read`. -/
def ofShape? (read : Value → Option Clause) : Shape → Value → Option Clause
  | .condition, .map ms => (Condition.ofMembers? ms).map condition
  | .condition, .list [field, operator, operand] =>
    (Condition.ofParts? field operator operand).map condition
  | .conj, .map ms => ((Members.get? "and" ms).bind (ofListBy? read)).map conj
  | .disj, .map ms => ((Members.get? "or" ms).bind (ofListBy? read)).map disj
  | .neg, .map ms => ((Members.get? "not" ms).bind read).map neg
  | _, _ => none

/-- Holds of the readers that take the first shape that fits, in this order. -/
def IsReader (order : List Shape) (read : Value → Option Clause) : Prop :=
  ∀ v, read v = order.findSome? fun s => ofShape? read s v

theorem ofItems?_eq_mapM : ∀ xs : List Value, ofItems? xs = xs.mapM ofValue?
  | [] => by rw [ofItems?, List.mapM_nil]; rfl
  | x :: xs => by
    rw [ofItems?, List.mapM_cons, ofItems?_eq_mapM xs]
    cases ofValue? x with
    | none => rfl
    | some c => cases xs.mapM ofValue? <;> rfl

theorem ofList?_eq (v : Value) : ofList? v = ofListBy? ofValue? v := by
  cases v with
  | list xs => rw [ofList?, ofListBy?, ofItems?_eq_mapM]
  | _ => rw [ofList?, ofListBy?] <;> exact fun _ => Value.noConfusion

theorem clausesUnder?_eq (key : String) (ms : Members) :
    clausesUnder? key ms = (Members.get? key ms).bind (ofListBy? ofValue?) := by
  have hsearch : clausesUnder? key ms = (Members.get? key ms).elim none (ofListBy? ofValue?) :=
    Members.search_eq (by rw [clausesUnder?]) (fun _ _ _ => by rw [clausesUnder?, ofList?_eq]) ms
  rw [hsearch]
  cases Members.get? key ms <;> rfl

theorem clauseUnder?_eq (key : String) (ms : Members) :
    clauseUnder? key ms = (Members.get? key ms).bind ofValue? := by
  have hsearch : clauseUnder? key ms = (Members.get? key ms).elim none ofValue? :=
    Members.search_eq (by rw [clauseUnder?]) (fun _ _ _ => by rw [clauseUnder?]) ms
  rw [hsearch]
  cases Members.get? key ms <;> rfl

/-- The reader tries the shapes in their order. -/
theorem isReader_ofValue? : IsReader Shape.all ofValue?
  | .map ms => by
    rw [ofValue?, clausesUnder?_eq, clausesUnder?_eq, clauseUnder?_eq]
    simp only [Shape.all, List.findSome?, ofShape?]
    cases Condition.ofMembers? ms with
    | some c => rfl
    | none =>
      cases (Members.get? "and" ms).bind (ofListBy? ofValue?) with
      | some cs => rfl
      | none =>
        cases (Members.get? "or" ms).bind (ofListBy? ofValue?) with
        | some cs => rfl
        | none => cases (Members.get? "not" ms).bind ofValue? <;> rfl
  | .list [field, operator, operand] => by
    rw [ofValue?]
    simp only [Shape.all, List.findSome?, ofShape?]
    cases Condition.ofParts? field operator operand <;> rfl
  | .list [] => rfl
  | .list [_] => rfl
  | .list [_, _] => rfl
  | .list (_ :: _ :: _ :: _ :: _) => rfl
  | .null => rfl
  | .bool _ => rfl
  | .num _ => rfl
  | .str _ => rfl

/-! ## One shape to a clause -/

/-- A map with exactly the keys of one shape is not read by another. -/
theorem ofShape?_eq_none {ms : Members} {s t : Shape} (read : Value → Option Clause)
    (hkeys : HasExactly s.keys ms) (ht : t ≠ s) : ofShape? read t (.map ms) = none := by
  have hget : ∀ key ∈ t.keys, Members.get? key ms = none := by
    intro key hkey
    rw [Option.eq_none_iff_forall_ne_some]
    intro v hv
    exact ht (eq_of_mem_keys hkey ((hkeys key).1 (Members.mem_keys_iff.2 ⟨v, hv⟩)))
  cases t with
  | condition =>
    rw [ofShape?, Condition.ofMembers?, hget "field" (by decide)]
    rfl
  | conj =>
    rw [ofShape?, hget "and" (by decide)]
    rfl
  | disj =>
    rw [ofShape?, hget "or" (by decide)]
    rfl
  | neg =>
    rw [ofShape?, hget "not" (by decide)]
    rfl

/-- Where only one shape fits, it is the first that fits, whatever the order. -/
theorem findSome?_eq_of_unique {order : List Shape} {s : Shape} {f : Shape → Option Clause}
    (hs : s ∈ order) (h : ∀ t, t ≠ s → f t = none) : order.findSome? f = f s := by
  induction order with
  | nil => exact absurd hs List.not_mem_nil
  | cons t order ih =>
    rw [List.findSome?_cons]
    by_cases ht : t = s
    · rw [ht]
      cases hf : f s with
      | some c => rfl
      | none =>
        rw [List.findSome?_eq_none_iff]
        intro u _
        by_cases hu : u = s
        · rw [hu, hf]
        · exact h u hu
    · rw [h t ht]
      exact ih ((List.mem_cons.1 hs).resolve_left (Ne.symm ht))

/-- A reader reads a map by the one shape whose keys it has. -/
theorem IsReader.map_eq {order : List Shape} {read : Value → Option Clause}
    (hread : IsReader order read) (horder : ∀ s, s ∈ order) {ms : Members} {s : Shape}
    (hkeys : HasExactly s.keys ms) : read (.map ms) = ofShape? read s (.map ms) := by
  rw [hread]
  exact findSome?_eq_of_unique (horder s) fun t ht => ofShape?_eq_none read hkeys ht

theorem mem_shapes_all (s : Shape) : s ∈ Shape.all := by
  cases s <;> decide

theorem ofValue?_map_eq {ms : Members} {s : Shape} (hkeys : HasExactly s.keys ms) :
    ofValue? (.map ms) = ofShape? ofValue? s (.map ms) :=
  isReader_ofValue?.map_eq mem_shapes_all hkeys

theorem ofListBy?_congr {read read' : Value → Option Clause} {xs : List Value}
    (h : ∀ x ∈ xs, read x = read' x) : ofListBy? read (.list xs) = ofListBy? read' (.list xs) := by
  rw [ofListBy?, ofListBy?]
  induction xs with
  | nil => rfl
  | cons x xs ih =>
    rw [List.forall_mem_cons] at h
    rw [List.mapM_cons, List.mapM_cons, h.1, ih h.2]

/-- **The order in which a reader tries the shapes does not matter for a clause.** -/
theorem IsReader.eq_ofValue? {order : List Shape} {read : Value → Option Clause}
    (hread : IsReader order read) (horder : ∀ s, s ∈ order) {v : Value} (hv : IsClause v) :
    read v = ofValue? v := by
  induction hv with
  | condition hkeys =>
    have hcondition : HasExactly Shape.condition.keys _ := hkeys
    rw [hread.map_eq horder hcondition, ofValue?_map_eq hcondition, ofShape?, ofShape?]
  | conj hkeys hvalue _ ih =>
    have hconj : HasExactly Shape.conj.keys _ := hkeys
    rw [hread.map_eq horder hconj, ofValue?_map_eq hconj, ofShape?, ofShape?, hvalue,
      Option.bind_some, Option.bind_some, ofListBy?_congr ih]
  | disj hkeys hvalue _ ih =>
    have hdisj : HasExactly Shape.disj.keys _ := hkeys
    rw [hread.map_eq horder hdisj, ofValue?_map_eq hdisj, ofShape?, ofShape?, hvalue,
      Option.bind_some, Option.bind_some, ofListBy?_congr ih]
  | neg hkeys hvalue _ ih =>
    have hneg : HasExactly Shape.neg.keys _ := hkeys
    rw [hread.map_eq horder hneg, ofValue?_map_eq hneg, ofShape?, ofShape?, hvalue,
      Option.bind_some, Option.bind_some, ih]

end Clause

end Logbook
