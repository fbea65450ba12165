/-!
# Blank text and lines

`Text.isBlank` holds of the white space of Unicode, and `Text.lines` splits a text at its line
breaks: a line feed, or a carriage return and a line feed.  A line break at the end begins no
further line.
-/

namespace Logbook.Text

/-- The white space of Unicode. -/
def isBlank (c : Char) : Bool :=
  let n := c.toNat
  (9 ≤ n && n ≤ 13) || n == 0x20 || n == 0x85 || n == 0xA0 || n == 0x1680
    || (0x2000 ≤ n && n ≤ 0x200A) || n == 0x2028 || n == 0x2029 || n == 0x202F || n == 0x205F
    || n == 0x3000

/-- A line without the carriage return at its end. -/
def chomp (line : List Char) : List Char :=
  if line.getLast? = some '\r' then line.dropLast else line

/-- The lines of a text behind those that are `done`, last first. -/
def linesFrom (done : List (List Char)) (cs : List Char) : List (List Char) :=
  if cs.isEmpty then done.reverse
  else
    let line := cs.takeWhile (· != '\n')
    match _h : cs.dropWhile (· != '\n') with
    | [] => (line :: done).reverse
    | _ :: rest => linesFrom (chomp line :: done) rest
termination_by cs.length
decreasing_by
  have := (List.dropWhile_sublist (· != '\n') (l := cs)).length_le
  rw [_h, List.length_cons] at this
  omega

/-- The lines of a text. -/
def lines (cs : List Char) : List (List Char) := linesFrom [] cs

end Logbook.Text
