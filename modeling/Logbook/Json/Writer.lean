import Logbook.Value

/-!
# Writing JSON

Two forms of the same text: compact, without any white space, and indented, with two spaces for
each level.  In a string the quote, the backslash and the control characters below U+0020 are
escaped, and every other character stands for itself.

Each writer takes the characters that follow the value, so that `v.write tail` is the text of
`v` in front of `tail`.

* `Value.write`, `Value.text`: the compact form.
* `Value.writeIndented`, `Value.indentedText`: the indented form.
-/

namespace Logbook

namespace Json

/-- A digit in base sixteen. -/
def hexDigit (n : Nat) : Char := if n < 10 then Char.ofNat (48 + n) else Char.ofNat (87 + n)

/-- What stands for a character inside a string. -/
def escape (c : Char) : List Char :=
  if c = '"' then ['\\', '"']
  else if c = '\\' then ['\\', '\\']
  else if c.toNat < 0x20 then
    if c = '\x08' then ['\\', 'b']
    else if c = '\t' then ['\\', 't']
    else if c = '\n' then ['\\', 'n']
    else if c = '\x0c' then ['\\', 'f']
    else if c = '\r' then ['\\', 'r']
    else ['\\', 'u', '0', '0', hexDigit (c.toNat / 16), hexDigit (c.toNat % 16)]
  else [c]

/-- Holds of the characters that stand for themselves inside a string. -/
def isPlain (c : Char) : Bool := c != '"' && c != '\\' && !(c.toNat < 0x20)

theorem escape_of_isPlain {c : Char} (h : isPlain c = true) : escape c = [c] := by
  simp only [isPlain, Bool.and_eq_true, bne_iff_ne, ne_eq, Bool.not_eq_true',
    decide_eq_false_iff_not] at h
  simp [escape, h.1.1, h.1.2, h.2]

/-- What stands for characters inside a string; most texts need no escapes at all. -/
def escapeAll (cs : List Char) : List Char := if cs.all isPlain then cs else cs.flatMap escape

theorem escapeAll_eq (cs : List Char) : escapeAll cs = cs.flatMap escape := by
  unfold escapeAll
  split
  · rename_i h
    induction cs with
    | nil => rfl
    | cons c cs ih =>
      simp only [List.all_cons, Bool.and_eq_true] at h
      simp [escape_of_isPlain h.1, ← ih h.2]
  · rfl

/-- A string between quotes. -/
def writeString (s : String) (tail : List Char) : List Char :=
  '"' :: (escapeAll s.toList ++ '"' :: tail)

/-- A line break and the white space that indents a level. -/
def newline (level : Nat) (tail : List Char) : List Char :=
  '\n' :: (List.replicate (2 * level) ' ' ++ tail)

end Json

namespace Value

open Json

/-! ## The compact form -/

mutual

/-- The compact text of a value, in front of `tail`. -/
def write : Value → List Char → List Char
  | null, tail => 'n' :: 'u' :: 'l' :: 'l' :: tail
  | bool true, tail => 't' :: 'r' :: 'u' :: 'e' :: tail
  | bool false, tail => 'f' :: 'a' :: 'l' :: 's' :: 'e' :: tail
  | num n, tail => n.chars ++ tail
  | str s, tail => writeString s tail
  | list [], tail => '[' :: ']' :: tail
  | list (x :: xs), tail => '[' :: write x (writeItems xs tail)
  | map [], tail => '{' :: '}' :: tail
  | map ((k, v) :: ms), tail => '{' :: writeString k (':' :: write v (writeMembers ms tail))

/-- The items after the first, and the end of the list. -/
def writeItems : List Value → List Char → List Char
  | [], tail => ']' :: tail
  | x :: xs, tail => ',' :: write x (writeItems xs tail)

/-- The members after the first, and the end of the map. -/
def writeMembers : List (String × Value) → List Char → List Char
  | [], tail => '}' :: tail
  | (k, v) :: ms, tail => ',' :: writeString k (':' :: write v (writeMembers ms tail))

end

/-- The compact text of a value. -/
def text (v : Value) : String := String.ofList (v.write [])

/-! ## The indented form -/

mutual

/-- The indented text of a value, in front of `tail`. -/
def writeIndented : Nat → Value → List Char → List Char
  | _, null, tail => write null tail
  | _, bool b, tail => write (bool b) tail
  | _, num n, tail => write (num n) tail
  | _, str s, tail => write (str s) tail
  | _, list [], tail => '[' :: ']' :: tail
  | level, list (x :: xs), tail =>
    '[' :: newline (level + 1) (writeIndented (level + 1) x (writeIndentedItems level xs tail))
  | _, map [], tail => '{' :: '}' :: tail
  | level, map ((k, v) :: ms), tail =>
    '{' :: newline (level + 1) (writeString k (':' :: ' ' ::
      writeIndented (level + 1) v (writeIndentedMembers level ms tail)))

/-- The items after the first, and the end of the list. -/
def writeIndentedItems : Nat → List Value → List Char → List Char
  | level, [], tail => newline level (']' :: tail)
  | level, x :: xs, tail =>
    ',' :: newline (level + 1) (writeIndented (level + 1) x (writeIndentedItems level xs tail))

/-- The members after the first, and the end of the map. -/
def writeIndentedMembers : Nat → List (String × Value) → List Char → List Char
  | level, [], tail => newline level ('}' :: tail)
  | level, (k, v) :: ms, tail =>
    ',' :: newline (level + 1) (writeString k (':' :: ' ' ::
      writeIndented (level + 1) v (writeIndentedMembers level ms tail)))

end

/-- The indented text of a value. -/
def indentedText (v : Value) : String := String.ofList (v.writeIndented 0 [])

end Value

end Logbook
