import Logbook.Json.Reader
import Logbook.Text.Blank

/-!
# JSON, line by line

A text may hold a JSON value on each of its lines.  Blank lines are passed over, but they count when
a line is named by its number.

* `Json.readLines`: the values of a text, or the number of the first line that holds none.
-/

namespace Logbook.Json

/-- The values of lines that are numbered from `number` on, or the number of the first line that is
neither blank nor a JSON text. -/
def readLinesFrom (number : Nat) : List (List Char) → Except Nat (List Value)
  | [] => .ok []
  | line :: rest =>
    if line.all Text.isBlank then readLinesFrom (number + 1) rest
    else
      match Value.read? line with
      | none => .error number
      | some v =>
        match readLinesFrom (number + 1) rest with
        | .ok vs => .ok (v :: vs)
        | .error bad => .error bad

/-- The values of a text with one on each line, or the number of the first line, counted from one,
that is neither blank nor a JSON text. -/
def readLines (cs : List Char) : Except Nat (List Value) := readLinesFrom 1 (Text.lines cs)

end Logbook.Json
