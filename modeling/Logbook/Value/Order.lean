import Logbook.Value

/-!
# Equality and order of values

Three relations on values.

* `Value.equal`: the same JSON structure, numbers by value and maps whatever the order of keys.
* `Value.compare?`: the order of the range operators.  Numbers, strings, booleans and lists
  compare with their own kind; every other pair has no order.
* `Value.order`: the total order of sorting, by kind first, then within a kind; maps are walked
  in the order of their members.  `Value.orderOpt` sorts a missing value like `null`.
-/

namespace Logbook.Value

/-! ## Equality -/

mutual

/-- Equality of values: numbers by exact value, maps by key. -/
def equal : Value → Value → Bool
  | null, null => true
  | bool a, bool b => a == b
  | num a, num b => a.compare b == .eq
  | str a, str b => a == b
  | list xs, list ys => equalItems xs ys
  | map xs, map ys => xs.length == ys.length && equalMembers xs ys
  | _, _ => false

/-- Equality of lists, item by item. -/
def equalItems : List Value → List Value → Bool
  | [], [] => true
  | x :: xs, y :: ys => equal x y && equalItems xs ys
  | _, _ => false

/-- Holds when each member has an equal one of the same key on the other side. -/
def equalMembers : List (String × Value) → List (String × Value) → Bool
  | [], _ => true
  | (k, x) :: xs, ys =>
    (match Members.get? k ys with
      | some y => equal x y
      | none => false) && equalMembers xs ys

end

/-! ## The order of the range operators -/

mutual

/-- The order of two values of a kind that has one. -/
def compare? : Value → Value → Option Ordering
  | num a, num b => some (a.compare b)
  | str a, str b => some (Ord.compare a b)
  | bool a, bool b => some (Ord.compare a b)
  | list xs, list ys => compareItems? xs ys
  | _, _ => none

/-- The first items that differ decide, then the lengths; items without an order leave the
lists without one. -/
def compareItems? : List Value → List Value → Option Ordering
  | [], [] => some .eq
  | [], _ :: _ => some .lt
  | _ :: _, [] => some .gt
  | x :: xs, y :: ys =>
    match compare? x y with
    | some .eq => compareItems? xs ys
    | o => o

end

/-! ## The order of sorting -/

/-- The place of a kind among the kinds. -/
def rank : Value → Nat
  | null => 0
  | bool _ => 1
  | num _ => 2
  | str _ => 3
  | list _ => 4
  | map _ => 5

mutual

/-- The order in which values are sorted. -/
def order : Value → Value → Ordering
  | null, null => .eq
  | bool a, bool b => Ord.compare a b
  | num a, num b => a.compare b
  | str a, str b => Ord.compare a b
  | list xs, list ys => orderItems xs ys
  | map xs, map ys => orderMembers xs ys
  | a, b => Ord.compare a.rank b.rank

/-- The first items that differ decide, then the lengths. -/
def orderItems : List Value → List Value → Ordering
  | [], [] => .eq
  | [], _ :: _ => .lt
  | _ :: _, [] => .gt
  | x :: xs, y :: ys =>
    match order x y with
    | .eq => orderItems xs ys
    | o => o

/-- The first members that differ decide, by key and then by value, then the lengths. -/
def orderMembers : List (String × Value) → List (String × Value) → Ordering
  | [], [] => .eq
  | [], _ :: _ => .lt
  | _ :: _, [] => .gt
  | (k, x) :: xs, (l, y) :: ys =>
    match Ord.compare k l with
    | .eq =>
      match order x y with
      | .eq => orderMembers xs ys
      | o => o
    | o => o

end

/-- The order of sorting, for values that may be missing. -/
def orderOpt (a b : Option Value) : Ordering := order (a.getD null) (b.getD null)

end Logbook.Value
