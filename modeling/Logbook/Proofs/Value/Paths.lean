import Logbook.Query.Issue
import Mathlib.Data.Nat.Notation

/-!
# Paths into a value

A path is gone step by step, and each step either leads into a member of a map, into an item of a
list, or nowhere.

* `Value.resolve?_append`: a path in two parts.
* `Value.resolve?_cons_key`, `Value.resolve?_cons_index`: a path by its first step.
* `Value.resolve?_key`, `Value.resolve?_index`: a path of one step.
-/

namespace Logbook.Value

/-- A path in two parts is gone in two parts. -/
theorem resolve?_append (path more : Path) (v : Value) :
    v.resolve? (path ++ more) = (v.resolve? path).bind (Value.resolve? more) := by
  induction path generalizing v with
  | nil => rw [List.nil_append, resolve?, Option.bind_some]
  | cons step path ih =>
    cases step <;> cases v <;> simp only [List.cons_append, resolve?, Option.bind_none]
    · split <;> simp only [ih, Option.bind_none]
    · split <;> simp only [ih, Option.bind_none]

theorem resolve?_cons_key (key : String) (path : Path) (ms : Members) :
    (map ms).resolve? (.key key :: path) = (Members.get? key ms).bind (resolve? path) := by
  rw [resolve?]
  cases Members.get? key ms <;> rfl

theorem resolve?_cons_index (i : ℕ) (path : Path) (xs : List Value) :
    (list xs).resolve? (.index i :: path) = xs[i]?.bind (resolve? path) := by
  rw [resolve?]
  cases xs[i]? <;> rfl

theorem resolve?_key (key : String) (ms : Members) :
    (map ms).resolve? [.key key] = Members.get? key ms := by
  rw [resolve?_cons_key]
  cases Members.get? key ms <;> rfl

theorem resolve?_index (i : ℕ) (xs : List Value) :
    (list xs).resolve? [.index i] = xs[i]? := by
  rw [resolve?_cons_index]
  cases xs[i]? <;> rfl

end Logbook.Value
