import Logbook.Json.Token

/-!
# Reading JSON

The reader goes through the tokens once.  It holds the lists and maps that are open, innermost
first, each with what it has read so far.  How many may be open at a time is limited; values are
read with a limit of 127.

* `State.step`: what a token does.
* `Value.first?`: the value at the front of a text and what follows it.
* `Value.read?`: the value that a whole text denotes.
-/

namespace Logbook.Json

/-- The lists and maps that may be open at a time when a value is read. -/
def maxDepth : Nat := 127

/-- A list or map that waits for a value: the items so far, last first, or the members so far
and the key of the value. -/
inductive Frame where
  | item (done : List Value)
  | member (done : Members) (key : String)

/-- Where the reader stands. -/
inductive State where
  /-- A value is due, to be put into the innermost frame. -/
  | value (stack : List Frame)
  /-- A list has just been opened. -/
  | firstItem (stack : List Frame)
  /-- A map has just been opened. -/
  | firstKey (stack : List Frame)
  /-- A list has got an item. -/
  | afterItem (done : List Value) (stack : List Frame)
  /-- A map has got a member. -/
  | afterMember (done : Members) (stack : List Frame)
  /-- A key is due. -/
  | key (done : Members) (stack : List Frame)
  /-- A key waits for its colon. -/
  | colon (done : Members) (key : String) (stack : List Frame)

/-- What comes of a token. -/
inductive Outcome where
  | refused
  | finished (v : Value)
  | next (s : State)

/-- Puts a value where it was due. -/
def place (v : Value) : List Frame → Outcome
  | [] => .finished v
  | .item done :: stack => .next (.afterItem (v :: done) stack)
  | .member done key :: stack => .next (.afterMember (Members.insert key v done) stack)

/-- Reads a token where a value is due. -/
def startValue (limit : Nat) (stack : List Frame) : Token → Outcome
  | .openList => if stack.length < limit then .next (.firstItem stack) else .refused
  | .openMap => if stack.length < limit then .next (.firstKey stack) else .refused
  | .string s => place (.str s) stack
  | .scalar v => place v stack
  | _ => .refused

/-- Reads one token. -/
def State.step (limit : Nat) : State → Token → Outcome
  | .value stack, t => startValue limit stack t
  | .firstItem stack, .closeList => place (.list []) stack
  | .firstItem stack, t => startValue limit (.item [] :: stack) t
  | .firstKey stack, .closeMap => place (.map []) stack
  | .firstKey stack, .string k => .next (.colon [] k stack)
  | .afterItem done stack, .comma => .next (.value (.item done :: stack))
  | .afterItem done stack, .closeList => place (.list done.reverse) stack
  | .afterMember done stack, .comma => .next (.key done stack)
  | .afterMember done stack, .closeMap => place (.map done) stack
  | .key done stack, .string k => .next (.colon done k stack)
  | .colon done k stack, .colon => .next (.value (.member done k :: stack))
  | _, _ => .refused

/-- Reads tokens until a value is finished. -/
def State.run (limit : Nat) (state : State) (cs : List Char) : Option (Value × List Char) :=
  match _h : Token.next? cs with
  | none => none
  | some (t, rest) =>
    match state.step limit t with
    | .refused => none
    | .finished v => some (v, rest)
    | .next state => State.run limit state rest
termination_by cs.length
decreasing_by exact Token.length_lt_of_next? _h

end Logbook.Json

namespace Logbook.Value

/-- The value at the front of a text and what follows it. -/
def first? (cs : List Char) : Option (Value × List Char) := (Json.State.value []).run Json.maxDepth cs

/-- The value that a whole text denotes, with white space before and after it. -/
def read? (cs : List Char) : Option Value :=
  match first? cs with
  | some (v, rest) => if rest.all Json.Token.isBlank then some v else none
  | none => none

/-- The value that a string denotes. -/
def ofText? (text : String) : Option Value := read? text.toList

end Logbook.Value
