import Logbook.Text.Width.Emoji
import Logbook.Text.Width.Ligature

/-!
# The width of text

How many columns of a terminal a text takes.  Most characters count for themselves.  An emoji takes
two columns whatever modifies it or is joined to it, and letters of a ligature take fewer columns
together than alone.  A text is read from its end, since it is what follows a character that changes
its width.

* `Width.After`: what stands behind a character.
* `Width.Front`: the same, with a variation mark that is still to be taken up.
* `Width.before`: one more character in front of a text.
* `Width.ofChars`: the number of columns.
-/

namespace Logbook.Text.Width

/-! ## What stands behind -/

/-- What stands behind a character, as far as it matters for the width of the character. -/
inductive After where
  | plain
  | alef
  /-- The end of a ligature, perhaps with a joiner in front of it. -/
  | ligature (last : Ligature) (joined : Bool)
  | emoji
  | modifier
  | indicator
  /-- Two regional indicators or more. -/
  | indicators
  /-- A joiner, and an emoji behind it. -/
  | joinedEmoji
  /-- The sign that makes a key of a digit, joined to an emoji. -/
  | joinedKeycap
  /-- An odd or even number of regional indicators, joined to an emoji. -/
  | joinedIndicators (even : Bool)
  /-- One regional indicator, joined to an emoji. -/
  | joinedIndicator
  /-- The end of a sequence of tags, joined to an emoji: letters, and digits in front of them. -/
  | joinedTags (letters digits : Nat)
deriving DecidableEq, Repr

namespace After

/-- How a character looks from the character in front of it. -/
def ofNat (n : Nat) : After :=
  if within alefs n then alef
  else if let some last := Ligature.ofNat? n then ligature last false
  else if isIndicator n then indicator
  else if isModifier n then modifier
  else if within pictographs n then emoji
  else plain

/-- Letters; all else counts for nothing.  Variation marks do not part letters. -/
def letters : After → After
  | alef => alef
  | ligature last joined => ligature last joined
  | _ => plain

/-- Holds when what is in front is one emoji with an emoji behind it. -/
def isJoined : After → Bool
  | joinedEmoji | joinedKeycap => true
  | _ => false

/-- The columns that a character adds which is shown together with what stands behind it, and what
it leaves for the character in front of it; `none` when it is shown for itself. -/
def join? (after : After) (n : Nat) : Option (Int × After) :=
  match after with
  | plain => none
  | alef =>
    if within lams n then some (0, plain)
    else if isMark n then some (0, alef)
    else none
  | ligature last joined =>
    if n = joiner then some (0, ligature last true)
    else if isTransparent n then some (0, after)
    else (last.grow? joined n).map fun (added, rest) =>
      (added, rest.elim plain (ligature · false))
  | emoji => if n = joiner then some (0, joinedEmoji) else none
  | modifier =>
    if within modifiable n then some (0, emoji)
    else if n = joiner then some (0, joinedEmoji)
    else none
  | indicator => if isIndicator n then some (1, indicators) else none
  | indicators =>
    if isIndicator n then some (1, indicators)
    else if n = joiner then some (0, joinedEmoji)
    else none
  | joinedEmoji =>
    if n = 0x20E3 then some (0, joinedKeycap)
    else if isIndicator n then some (1, joinedIndicator)
    else if isModifier n then some (0, modifier)
    else if n = lastTag then some (0, joinedTags 0 0)
    else if within pictographs n then some (0, emoji)
    else none
  | joinedKeycap => none
  | joinedIndicator => if isIndicator n then some (-1, joinedIndicators true) else none
  | joinedIndicators even =>
    if isIndicator n then some (if even then 3 else -1, joinedIndicators (!even))
    else if n = joiner then some (0, joinedEmoji)
    else none
  | joinedTags letters digits =>
    if isTagLetter n && digits = 0 && letters < 6 then some (0, joinedTags (letters + 1) 0)
    else if isTagDigit n && (if digits = 0 then letters ≤ 4 else digits < 3) then
      some (0, joinedTags letters (digits + 1))
    else if n = 0x1F3F4 && (if digits = 0 then 3 ≤ letters else digits = 3) then some (0, emoji)
    else none

end After

/-! ## The width -/

/-- The variation that a mark asks for. -/
inductive Variation where
  | text
  | emoji
deriving DecidableEq, Repr

/-- What there is at the front of a text: a variation mark, perhaps, and what stands behind it. -/
structure Front where
  after : After
  mark : Option Variation
deriving DecidableEq, Repr

namespace Front

/-- The columns that a character adds in front of a text, and what there is at the front then.  A
mark that the character does not take up is dropped. -/
def before (front : Front) (n : Nat) : Int × Front :=
  if front.mark = some .emoji && within markable n then
    (if front.after.isJoined then 0 else 2, ⟨.emoji, none⟩)
  else
    let after := if front.mark.isNone then front.after else front.after.letters
    if n ≤ 0xA0 then (1, ⟨.plain, none⟩)
    else if n = emojiMark then
      (0, ⟨if after.isJoined then after else after.letters, some .emoji⟩)
    else if n = textMark then (0, ⟨after.letters, some .text⟩)
    else if front.mark = some .text && keepsText n then (1, ⟨.plain, none⟩)
    else
      match after.join? n with
      | some (added, after) => (added, ⟨after, none⟩)
      | none => (ofNat n, ⟨.ofNat n, none⟩)

end Front

/-- The number of columns, and what there is at the front, after one more character is put in front
of a text. -/
def before (c : Char) (behind : Int × Front) : Int × Front :=
  let (added, front) := behind.2.before c.toNat
  (behind.1 + added, front)

/-- The number of columns that characters take. -/
def ofChars (cs : List Char) : Nat := (cs.foldr before (0, ⟨.plain, none⟩)).1.toNat

end Logbook.Text.Width
