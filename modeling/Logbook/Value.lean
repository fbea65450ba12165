import Logbook.Number

/-!
# Values

A log record is a map from field names to values, and a value is any JSON value.  Maps keep
their members in the order in which the keys first came, and a key is written once.

* `Members.get?`, `Members.insert`: the member under a key; setting a key that is there keeps
  its place.
* `Value.typeName`: the word used for a kind of value in messages.
* `Value.depth`, `Value.WellFormed`: nesting, and the values that can be written and read back.
-/

namespace Logbook

/-- A JSON value. -/
inductive Value where
  | null
  | bool (b : Bool)
  | num (n : Number)
  | str (s : String)
  | list (items : List Value)
  | map (members : List (String × Value))
deriving Repr, Inhabited

/-- The members of a map, in order. -/
abbrev Members := List (String × Value)

/-- A log record: the members of one map. -/
abbrev Record := Members

/-! ## Members -/

namespace Members

/-- The value under a key. -/
def get? (key : String) : Members → Option Value
  | [] => none
  | (k, v) :: rest => if k = key then some v else get? key rest

/-- Sets a key: in its place if it is there, and at the end if it is new. -/
def insert (key : String) (value : Value) : Members → Members
  | [] => [(key, value)]
  | (k, v) :: rest => if k = key then (k, value) :: rest else (k, v) :: insert key value rest

/-- Holds when a key is there. -/
def has (key : String) (members : Members) : Bool := (get? key members).isSome

/-- The map with these members; of a key given twice the first place and the last value stay. -/
def ofList (pairs : List (String × Value)) : Members :=
  pairs.foldl (fun members (k, v) => insert k v members) []

/-- The keys in order. -/
def keys (members : Members) : List String := members.map (·.1)

@[simp] theorem get?_nil (key : String) : get? key [] = none := rfl

theorem get?_cons (key k : String) (v : Value) (rest : Members) :
    get? key ((k, v) :: rest) = if k = key then some v else get? key rest := rfl

end Members

/-! ## Kinds of values -/

namespace Value

/-- The word for a kind of value. -/
def typeName : Value → String
  | null => "null"
  | bool _ => "boolean"
  | num _ => "number"
  | str _ => "string"
  | list _ => "list"
  | map _ => "map"

/-- The items of a list. -/
def items? : Value → Option (List Value)
  | list xs => some xs
  | _ => none

/-- The members of a map. -/
def members? : Value → Option Members
  | map ms => some ms
  | _ => none

/-- The characters of a string. -/
def string? : Value → Option String
  | str s => some s
  | _ => none

/-- A natural number below `2^64` that is not written as a double. -/
def natural? : Value → Option Nat
  | num (.int i) => if 0 ≤ i ∧ i < Double.wordCeil then some i.toNat else none
  | _ => none

/-- The value of a count. -/
def ofNat (n : Nat) : Value := num (.int n)

/-! ## Nesting -/

mutual

/-- How many lists and maps stand inside one another. -/
def depth : Value → Nat
  | list xs => depthOfItems xs + 1
  | map ms => depthOfMembers ms + 1
  | _ => 0

/-- The greatest nesting among the items of a list. -/
def depthOfItems : List Value → Nat
  | [] => 0
  | x :: xs => max (depth x) (depthOfItems xs)

/-- The greatest nesting among the members of a map. -/
def depthOfMembers : List (String × Value) → Nat
  | [] => 0
  | (_, v) :: ms => max (depth v) (depthOfMembers ms)

end

mutual

/-- Holds of the values that text can denote: integers have 64 bits, and no map has a key
twice. -/
def WellFormed : Value → Prop
  | num n => n.InRange
  | list xs => WellFormedItems xs
  | map ms => (Members.keys ms).Nodup ∧ WellFormedMembers ms
  | _ => True

/-- Holds when every item of a list is well formed. -/
def WellFormedItems : List Value → Prop
  | [] => True
  | x :: xs => WellFormed x ∧ WellFormedItems xs

/-- Holds when the value of every member is well formed. -/
def WellFormedMembers : List (String × Value) → Prop
  | [] => True
  | (_, v) :: ms => WellFormed v ∧ WellFormedMembers ms

end

end Value

end Logbook
