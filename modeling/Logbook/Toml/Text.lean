/-!
# The text of TOML

White space, line breaks, comments and strings.  Each reader takes something from the front of the
characters and gives back what follows it.

* `skipBlank`, `skipLines`, `endOfLine?`: what stands between the parts of a document.
* `string?`: a string in one of the four quotations.
* `keyPath?`: a key, with dots between its parts.
-/

namespace Logbook.Toml

/-- What a reader gives: something, and the characters that follow it. -/
abbrev Reading (α : Type) := Option (α × List Char)

/-! ## Between the parts -/

/-- White space within a line. -/
def isBlank (c : Char) : Bool := c == ' ' || c == '\t'

/-- The characters that may stand in comments and strings: none of the control characters but the
tab. -/
def isText (c : Char) : Bool := c == '\t' || (0x20 ≤ c.toNat && c.toNat != 0x7F)

/-- What follows white space. -/
def skipBlank (cs : List Char) : List Char := cs.dropWhile isBlank

/-- What follows a line break. -/
def newline? : List Char → Option (List Char)
  | '\n' :: rest => some rest
  | '\r' :: '\n' :: rest => some rest
  | _ => none

/-- What follows the end of a line, with white space and a comment before it. -/
def endOfLine? (cs : List Char) : Option (List Char) :=
  let after := match skipBlank cs with
    | '#' :: rest => rest.dropWhile isText
    | rest => rest
  if after.isEmpty then some [] else newline? after

theorem length_dropWhile_le (p : Char → Bool) (cs : List Char) :
    (cs.dropWhile p).length ≤ cs.length :=
  (List.dropWhile_sublist p).length_le

/-- What follows white space and line breaks. -/
def skipBreaks : List Char → List Char
  | ' ' :: rest => skipBreaks rest
  | '\t' :: rest => skipBreaks rest
  | '\n' :: rest => skipBreaks rest
  | '\r' :: '\n' :: rest => skipBreaks rest
  | rest => rest

/-- What follows white space, line breaks and comments. -/
def skipLines (cs : List Char) : List Char :=
  match cs with
  | ' ' :: rest => skipLines rest
  | '\t' :: rest => skipLines rest
  | '\n' :: rest => skipLines rest
  | '\r' :: '\n' :: rest => skipLines rest
  | '#' :: rest => skipLines (rest.dropWhile isText)
  | rest => rest
termination_by cs.length
decreasing_by
  all_goals
    have := length_dropWhile_le isText rest
    simp only [List.length_cons]
    omega

/-! ## Strings -/

/-- The value of a digit in base sixteen. -/
def hexDigit? (c : Char) : Option Nat :=
  if '0' ≤ c ∧ c ≤ '9' then some (c.toNat - '0'.toNat)
  else if 'a' ≤ c ∧ c ≤ 'f' then some (c.toNat - 'a'.toNat + 10)
  else if 'A' ≤ c ∧ c ≤ 'F' then some (c.toNat - 'A'.toNat + 10)
  else none

/-- The character whose number is written in so many digits of base sixteen. -/
def scalar? (digits : Nat) (cs : List Char) : Reading Char :=
  match (cs.take digits).mapM hexDigit? with
  | some ds =>
    let code := ds.foldl (fun n d => 16 * n + d) 0
    if ds.length = digits ∧ code.isValidChar then some (Char.ofNat code, cs.drop digits) else none
  | none => none

/-- The character that an escape denotes, behind its backslash. -/
def escape? : List Char → Reading Char
  | 'b' :: rest => some ('\x08', rest)
  | 't' :: rest => some ('\t', rest)
  | 'n' :: rest => some ('\n', rest)
  | 'f' :: rest => some ('\x0c', rest)
  | 'r' :: rest => some ('\r', rest)
  | '"' :: rest => some ('"', rest)
  | '\\' :: rest => some ('\\', rest)
  | 'u' :: rest => scalar? 4 rest
  | 'U' :: rest => scalar? 8 rest
  | _ => none

/-- The rest of a string that ends at its first quote; `done` holds what is read already. -/
def basicFrom : Nat → String → List Char → Reading String
  | 0, _, _ => none
  | _ + 1, done, '"' :: rest => some (done, rest)
  | fuel + 1, done, '\\' :: rest =>
    match escape? rest with
    | some (c, rest) => basicFrom fuel (done.push c) rest
    | none => none
  | fuel + 1, done, c :: rest => if isText c then basicFrom fuel (done.push c) rest else none
  | _ + 1, _, [] => none

/-- The rest of a string in which every character stands for itself. -/
def literalFrom : String → List Char → Reading String
  | done, '\'' :: rest => some (done, rest)
  | done, c :: rest => if isText c then literalFrom (done.push c) rest else none
  | _, [] => none

/-- The end of a string of several lines, behind the three quotes that close it: up to two more
quotes belong to the string. -/
def closing (quote : Char) (done : String) : List Char → String × List Char
  | a :: b :: rest =>
    if a = quote ∧ b = quote then ((done.push quote).push quote, rest)
    else if a = quote then (done.push quote, b :: rest)
    else (done, a :: b :: rest)
  | [a] => if a = quote then (done.push quote, []) else (done, [a])
  | [] => (done, [])

/-- The rest of a string of several lines; a backslash at the end of a line takes the white space
that follows away. -/
def linesFrom : Nat → String → List Char → Reading String
  | 0, _, _ => none
  | _ + 1, done, '"' :: '"' :: '"' :: rest => some (closing '"' done rest)
  | fuel + 1, done, '\\' :: rest =>
    match newline? (skipBlank rest) with
    | some rest => linesFrom fuel done (skipBreaks rest)
    | none =>
      match escape? rest with
      | some (c, rest) => linesFrom fuel (done.push c) rest
      | none => none
  | fuel + 1, done, '\n' :: rest => linesFrom fuel (done.push '\n') rest
  | fuel + 1, done, '\r' :: '\n' :: rest => linesFrom fuel (done.push '\n') rest
  | fuel + 1, done, c :: rest => if isText c then linesFrom fuel (done.push c) rest else none
  | _ + 1, _, [] => none

/-- The rest of a string of several lines in which every character stands for itself. -/
def literalLinesFrom : String → List Char → Reading String
  | done, '\'' :: '\'' :: '\'' :: rest => some (closing '\'' done rest)
  | done, '\n' :: rest => literalLinesFrom (done.push '\n') rest
  | done, '\r' :: '\n' :: rest => literalLinesFrom (done.push '\n') rest
  | done, c :: rest => if isText c then literalLinesFrom (done.push c) rest else none
  | _, [] => none

/-- What follows the line break right behind opening quotes, which is no part of the string. -/
def afterOpening (cs : List Char) : List Char := (newline? cs).getD cs

/-- A string of one line. -/
def line? : List Char → Reading String
  | '"' :: rest => basicFrom (rest.length + 1) "" rest
  | '\'' :: rest => literalFrom "" rest
  | _ => none

/-- A string. -/
def string? : List Char → Reading String
  | '"' :: '"' :: '"' :: rest => linesFrom (rest.length + 1) "" (afterOpening rest)
  | '\'' :: '\'' :: '\'' :: rest => literalLinesFrom "" (afterOpening rest)
  | cs => line? cs

/-! ## Keys -/

/-- The characters of a key without quotes. -/
def isBare (c : Char) : Bool := c.isAlphanum || c == '_' || c == '-'

/-- One part of a key. -/
def keyPart? (cs : List Char) : Reading String :=
  match line? cs with
  | some found => some found
  | none =>
    let name := cs.takeWhile isBare
    if name.isEmpty then none else some (String.ofList name, cs.dropWhile isBare)

/-- The parts of a key, with white space around each of them. -/
def keyParts? : Nat → List Char → Reading (List String)
  | 0, _ => none
  | fuel + 1, cs =>
    match keyPart? (skipBlank cs) with
    | none => none
    | some (name, rest) =>
      match skipBlank rest with
      | '.' :: rest => (keyParts? fuel rest).map fun (names, rest) => (name :: names, rest)
      | rest => some ([name], rest)

/-- The most parts of a key, and the most lists and tables that may stand inside one another. -/
def maxDepth : Nat := 79

/-- A key. -/
def keyPath? (cs : List Char) : Reading (List String) := keyParts? maxDepth cs

end Logbook.Toml
