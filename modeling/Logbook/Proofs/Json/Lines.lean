import Logbook.Json.Lines
import Logbook.Proofs.Json.RoundTrip
import Logbook.Proofs.Text.Lines

/-!
# Values on lines

A text that holds a value on each of its lines is read back as these values.  What this rests on is
that the text of a value fits on a line: whatever the texts inside the value hold, no character of it
is a control character, so there is no line break in it, and none of its ends is mistaken for one.
Blank lines may stand anywhere.

In any other text the first line that is wrong is named, by its number among all lines, blank ones
included.

* `Json.IsPlainText`, `Value.isPlainText_write`: the text of a value has no control characters.
* `Json.Listing`: values on the lines of a text.
* `Json.IsBad`, `Json.readLinesFrom_cases`: what the reader makes of any lines.
* `Json.readLines_recovers_or_locates`: both statements, on whole texts.
-/

namespace Logbook

/-! ## Characters of a text -/

namespace Json

/-- Holds of a text without control characters. -/
def IsPlainText (cs : List Char) : Prop := ∀ c ∈ cs, 0x20 ≤ c.toNat

theorem IsPlainText.not_mem {cs : List Char} (h : IsPlainText cs) {c : Char} (hc : c.toNat < 0x20) :
    c ∉ cs :=
  fun hmem => absurd (h c hmem) (by omega)

theorem isPlainText_cons {c : Char} {cs : List Char} :
    IsPlainText (c :: cs) ↔ 0x20 ≤ c.toNat ∧ IsPlainText cs :=
  List.forall_mem_cons

theorem isPlainText_append {cs ds : List Char} :
    IsPlainText (cs ++ ds) ↔ IsPlainText cs ∧ IsPlainText ds :=
  List.forall_mem_append

theorem isPlainText_nil : IsPlainText [] := fun _ h => absurd h List.not_mem_nil

/-- What stands for a character inside a string holds no control characters. -/
theorem isPlainText_escape (c : Char) : IsPlainText (escape c) := by
  have hdigit : ∀ n < 16, 0x20 ≤ (hexDigit n).toNat := by decide
  have hhigh := hdigit (c.toNat / 16)
  have hlow := hdigit (c.toNat % 16) (Nat.mod_lt _ (by decide))
  unfold escape
  split_ifs <;> simp [IsPlainText] <;> omega

theorem isPlainText_writeString (s : String) {tail : List Char} (htail : IsPlainText tail) :
    IsPlainText (writeString s tail) := by
  have hescaped : IsPlainText (s.toList.flatMap escape) := by
    intro d hd
    obtain ⟨c, -, hd⟩ := List.mem_flatMap.1 hd
    exact isPlainText_escape c d hd
  rw [writeString, escapeAll_eq, isPlainText_cons, isPlainText_append, isPlainText_cons]
  exact ⟨by decide, hescaped, by decide, htail⟩

namespace Token

theorem AllDigits.isPlainText {cs : List Char} (h : AllDigits cs) : IsPlainText cs := by
  intro c hc
  have hdigit := h c hc
  simp only [Char.isDigit, Bool.and_eq_true, decide_eq_true_eq, ge_iff_le, UInt32.le_iff_toNat_le]
    at hdigit
  exact le_trans (by decide) hdigit.1

theorem isPlainText_fractionText {part : List Char} (h : AllDigits part) :
    IsPlainText (fractionText part) := by
  unfold fractionText
  split
  · exact isPlainText_nil
  · exact isPlainText_cons.2 ⟨by decide, h.isPlainText⟩

theorem isPlainText_exponentText (e : Option ℤ) : IsPlainText (exponentText e) := by
  cases e with
  | none => exact isPlainText_nil
  | some e =>
    refine isPlainText_cons.2 ⟨by decide, isPlainText_cons.2 ⟨?_, ?_⟩⟩
    · split_ifs <;> decide
    · exact (allDigits_toDigits _).isPlainText

end Token

theorem isPlainText_chars (n : Number) : IsPlainText n.chars := by
  cases n with
  | int i =>
    show IsPlainText (Number.intChars i)
    unfold Number.intChars
    have hdigits := (Token.allDigits_toDigits i.natAbs).isPlainText
    split_ifs
    · exact isPlainText_cons.2 ⟨by decide, hdigits⟩
    · exact hdigits
  | float x =>
    show IsPlainText x.chars
    obtain ⟨s, hs⟩ := Decimal.spelling_chars x.exponent_shortest
    have hshortest : IsPlainText x.shortest.chars := by
      rw [hs, Decimal.Spelling.text, isPlainText_append, isPlainText_append]
      exact ⟨s.isWhole.digits.isPlainText, Token.isPlainText_fractionText s.allDigits,
        Token.isPlainText_exponentText s.exponent⟩
    unfold Double.chars
    split_ifs
    · exact isPlainText_cons.2 ⟨by decide, hshortest⟩
    · exact hshortest

end Json

namespace Value

open Json

mutual

/-- **The text of a value has no control characters**, whatever its texts hold. -/
theorem isPlainText_write : ∀ (v : Value) {tail : List Char}, IsPlainText tail →
    IsPlainText (v.write tail)
  | .null, tail, h => by
    simp only [write, isPlainText_cons]
    exact ⟨by decide, by decide, by decide, by decide, h⟩
  | .bool true, tail, h => by
    simp only [write, isPlainText_cons]
    exact ⟨by decide, by decide, by decide, by decide, h⟩
  | .bool false, tail, h => by
    simp only [write, isPlainText_cons]
    exact ⟨by decide, by decide, by decide, by decide, by decide, h⟩
  | .num n, tail, h => by
    rw [write]
    exact isPlainText_append.2 ⟨isPlainText_chars n, h⟩
  | .str s, tail, h => by
    rw [write]
    exact isPlainText_writeString s h
  | .list [], tail, h => by
    simp only [write, isPlainText_cons]
    exact ⟨by decide, by decide, h⟩
  | .list (x :: xs), tail, h => by
    rw [write, isPlainText_cons]
    exact ⟨by decide, isPlainText_write x (isPlainText_writeItems xs h)⟩
  | .map [], tail, h => by
    simp only [write, isPlainText_cons]
    exact ⟨by decide, by decide, h⟩
  | .map ((k, v) :: ms), tail, h => by
    rw [write, isPlainText_cons]
    refine ⟨by decide, isPlainText_writeString k (isPlainText_cons.2 ⟨by decide, ?_⟩)⟩
    exact isPlainText_write v (isPlainText_writeMembers ms h)

theorem isPlainText_writeItems : ∀ (xs : List Value) {tail : List Char}, IsPlainText tail →
    IsPlainText (writeItems xs tail)
  | [], tail, h => by
    rw [writeItems, isPlainText_cons]
    exact ⟨by decide, h⟩
  | x :: xs, tail, h => by
    rw [writeItems, isPlainText_cons]
    exact ⟨by decide, isPlainText_write x (isPlainText_writeItems xs h)⟩

theorem isPlainText_writeMembers : ∀ (ms : Members) {tail : List Char}, IsPlainText tail →
    IsPlainText (writeMembers ms tail)
  | [], tail, h => by
    rw [writeMembers, isPlainText_cons]
    exact ⟨by decide, h⟩
  | (k, v) :: ms, tail, h => by
    rw [writeMembers, isPlainText_cons]
    refine ⟨by decide, isPlainText_writeString k (isPlainText_cons.2 ⟨by decide, ?_⟩)⟩
    exact isPlainText_write v (isPlainText_writeMembers ms h)

end

/-! ## The text of a value on a line -/

theorem toList_text (v : Value) : v.text.toList = v.write [] := by
  rw [text, String.toList_ofList]

theorem isPlainText_text (v : Value) : IsPlainText v.text.toList := by
  rw [toList_text]
  exact isPlainText_write v isPlainText_nil

theorem read?_text {v : Value} (hv : v.WellFormed) (hdepth : v.depth ≤ maxDepth) :
    read? v.text.toList = some v :=
  ofText?_text hv hdepth

/-- A text without control characters loses nothing to a line break. -/
theorem chomp_text (v : Value) : Text.chomp v.text.toList = v.text.toList := by
  refine Text.chomp_of_getLast?_ne fun hlast => ?_
  exact (isPlainText_text v).not_mem (by decide) (List.mem_of_getLast? hlast)

theorem isBlank_of_startsNumber {c : Char} (hc : Token.StartsNumber c) : Text.isBlank c = false := by
  rcases hc with rfl | hc
  · decide
  · simp only [Char.isDigit, Bool.and_eq_true, decide_eq_true_eq, ge_iff_le,
      UInt32.le_iff_toNat_le] at hc
    have hlow : 48 ≤ c.toNat := hc.1
    have hhigh : c.toNat ≤ 57 := hc.2
    simp only [Text.isBlank, Bool.or_eq_false_iff, Bool.and_eq_false_iff, decide_eq_false_iff_not,
      beq_eq_false_iff_ne]
    omega

/-- The text of a value does not start with white space. -/
theorem exists_cons_write (v : Value) (tail : List Char) :
    ∃ c cs, v.write tail = c :: cs ∧ Text.isBlank c = false := by
  cases v with
  | null => exact ⟨_, _, rfl, by decide⟩
  | bool b => cases b <;> exact ⟨_, _, rfl, by decide⟩
  | num n =>
    obtain ⟨c, cs, hcs, hc⟩ := Token.exists_cons_chars n
    rw [write, hcs]
    exact ⟨c, cs ++ tail, rfl, isBlank_of_startsNumber hc⟩
  | str s => exact ⟨_, _, rfl, by decide⟩
  | list xs => cases xs <;> exact ⟨_, _, rfl, by decide⟩
  | map ms => cases ms <;> exact ⟨_, _, rfl, by decide⟩

theorem all_isBlank_text (v : Value) : v.text.toList.all Text.isBlank = false := by
  obtain ⟨c, cs, hcs, hc⟩ := v.exists_cons_write []
  rw [toList_text, hcs, List.all_cons, hc, Bool.false_and]

theorem text_ne_nil (v : Value) : v.text.toList ≠ [] := by
  obtain ⟨c, cs, hcs, -⟩ := v.exists_cons_write []
  rw [toList_text, hcs]
  exact List.cons_ne_nil c cs

end Value

namespace Json

/-! ## Reading line by line -/

section Lines

variable {line : List Char} (number : ℕ) (rest : List (List Char))

theorem readLinesFrom_of_blank (h : line.all Text.isBlank = true) :
    readLinesFrom number (line :: rest) = readLinesFrom (number + 1) rest := by
  rw [readLinesFrom, if_pos h]

theorem readLinesFrom_of_read {v : Value} (h : line.all Text.isBlank = false)
    (hread : Value.read? line = some v) :
    readLinesFrom number (line :: rest) = (readLinesFrom (number + 1) rest).map (v :: ·) := by
  rw [readLinesFrom, if_neg (by rw [h]; exact Bool.false_ne_true), hread]
  cases readLinesFrom (number + 1) rest <;> rfl

/-- Holds of the lines that are neither blank nor a JSON text.  A JSON text is what the reader takes
as one value, so one that nests deeper than it follows is bad too. -/
def IsBad (line : List Char) : Prop :=
  line.all Text.isBlank = false ∧ Value.read? line = none

instance : DecidablePred IsBad := fun line =>
  inferInstanceAs (Decidable (line.all Text.isBlank = false ∧ Value.read? line = none))

theorem readLinesFrom_of_isBad (h : IsBad line) :
    readLinesFrom number (line :: rest) = .error number := by
  rw [readLinesFrom, if_neg (by rw [h.1]; exact Bool.false_ne_true), h.2]

end Lines

/-- **The first bad line is named**, by how many lines stand in front of it; without one, all values
are read. -/
theorem readLinesFrom_cases (number : ℕ) (lines : List (List Char)) :
    (∃ vs, readLinesFrom number lines = .ok vs ∧ ∀ line ∈ lines, ¬IsBad line) ∨
    ∃ before line after, lines = before ++ line :: after ∧ (∀ other ∈ before, ¬IsBad other) ∧
      IsBad line ∧ readLinesFrom number lines = .error (number + before.length) := by
  induction lines generalizing number with
  | nil => exact Or.inl ⟨[], rfl, fun _ h => absurd h List.not_mem_nil⟩
  | cons line rest ih =>
    by_cases hbad : IsBad line
    · exact Or.inr ⟨[], line, rest, rfl, fun _ h => absurd h List.not_mem_nil, hbad,
        readLinesFrom_of_isBad number rest hbad⟩
    -- a line that is not bad passes on the answer for the others, with or without a value
    have hpass : ∃ keep : List Value → List Value,
        readLinesFrom number (line :: rest) = (readLinesFrom (number + 1) rest).map keep := by
      cases hblank : line.all Text.isBlank with
      | true =>
        refine ⟨id, ?_⟩
        rw [readLinesFrom_of_blank number rest hblank]
        cases readLinesFrom (number + 1) rest <;> rfl
      | false =>
        cases hread : Value.read? line with
        | none => exact absurd ⟨hblank, hread⟩ hbad
        | some v => exact ⟨_, readLinesFrom_of_read number rest hblank hread⟩
    obtain ⟨keep, hkeep⟩ := hpass
    rw [hkeep]
    rcases ih (number + 1) with ⟨vs, hvs, hnone⟩ | ⟨before, bad, after, rfl, hbefore, hfirst, herror⟩
    · rw [hvs]
      exact Or.inl ⟨keep vs, rfl, List.forall_mem_cons.2 ⟨hbad, hnone⟩⟩
    · rw [herror]
      refine Or.inr ⟨line :: before, bad, after, rfl, List.forall_mem_cons.2 ⟨hbad, hbefore⟩,
        hfirst, ?_⟩
      rw [List.length_cons, Nat.add_right_comm, Nat.add_assoc]
      rfl

/-! ## Values on the lines of a text -/

/-- Holds of the lines of white space. -/
def IsBlankLine (line : List Char) : Prop := ∀ c ∈ line, Text.isBlank c = true ∧ c ≠ '\n'

/-- Holds of values and a text that holds them, each on a line of its own, with blank lines anywhere.
Lines end in either break, and the last one may stand without. -/
inductive Listing : List Value → List Char → Prop
  | lastBlank {line : List Char} (hline : IsBlankLine line) : Listing [] line
  | lastValue {v : Value} (hv : v.WellFormed) (hdepth : v.depth ≤ maxDepth) :
      Listing [v] v.text.toList
  | blank {line rest : List Char} {vs : List Value} (ending : Text.LineBreak)
      (hline : IsBlankLine line) (hrest : Listing vs rest) :
      Listing vs (line ++ ending.chars ++ rest)
  | value {v : Value} {rest : List Char} {vs : List Value} (ending : Text.LineBreak)
      (hv : v.WellFormed) (hdepth : v.depth ≤ maxDepth) (hrest : Listing vs rest) :
      Listing (v :: vs) (v.text.toList ++ ending.chars ++ rest)

theorem IsBlankLine.not_mem {line : List Char} (h : IsBlankLine line) : '\n' ∉ line :=
  fun hmem => (h _ hmem).2 rfl

theorem IsBlankLine.all {line : List Char} (h : IsBlankLine line) :
    line.all Text.isBlank = true :=
  List.all_eq_true.2 fun c hc => (h c hc).1

theorem IsBlankLine.chomp {line : List Char} (h : IsBlankLine line) :
    IsBlankLine (Text.chomp line) := by
  unfold Text.chomp
  split
  · exact fun c hc => h c (List.mem_of_mem_dropLast hc)
  · exact h

/-- A text that lists values has lines from which they are read, wherever counting starts. -/
theorem Listing.exists_lines {vs : List Value} {text : List Char} (h : Listing vs text) :
    ∃ lines, Text.HasLines text lines ∧ ∀ number, readLinesFrom number lines = .ok vs := by
  have hvalue : ∀ (v : Value), '\n' ∉ v.text.toList := fun v =>
    v.isPlainText_text.not_mem (by decide)
  induction h with
  | @lastBlank line hline =>
    by_cases hne : line = []
    · exact ⟨[], hne ▸ .empty, fun _ => rfl⟩
    · refine ⟨[line], .unended hline.not_mem hne, fun number => ?_⟩
      rw [readLinesFrom_of_blank number [] hline.all]
      rfl
  | @lastValue v hv hdepth =>
    refine ⟨[v.text.toList], .unended (hvalue v) v.text_ne_nil, fun number => ?_⟩
    rw [readLinesFrom_of_read number [] v.all_isBlank_text (Value.read?_text hv hdepth)]
    rfl
  | @blank line rest vs ending hline hrest ih =>
    obtain ⟨lines, hlines, hread⟩ := ih
    obtain ⟨kept, hkept, hall⟩ := hlines.exists_ended ending hline.not_mem
    have hblank : IsBlankLine kept := by
      rcases hkept with rfl | rfl
      · exact hline
      · exact hline.chomp
    refine ⟨kept :: lines, hall, fun number => ?_⟩
    rw [readLinesFrom_of_blank number lines hblank.all, hread]
  | @value v rest vs ending hv hdepth hrest ih =>
    obtain ⟨lines, hlines, hread⟩ := ih
    obtain ⟨kept, hkept, hall⟩ := hlines.exists_ended ending (hvalue v)
    rw [v.chomp_text, or_self] at hkept
    subst hkept
    refine ⟨_, hall, fun number => ?_⟩
    rw [readLinesFrom_of_read number lines v.all_isBlank_text (Value.read?_text hv hdepth), hread]
    rfl

/-- **Values on lines are recovered, or the first bad line is located.**  A text that lists values,
with blank lines anywhere, is read as exactly these values.  Every text has lines of one kind only,
and where one of them is neither blank nor a JSON text, the answer is the number of the first such
line, counted from one among all lines. -/
theorem readLines_recovers_or_locates :
    (∀ (vs : List Value) (text : List Char), Listing vs text → readLines text = .ok vs) ∧
    (∀ text : List Char, ∃! lines, Text.HasLines text lines) ∧
    ∀ (text : List Char) (lines : List (List Char)), Text.HasLines text lines →
      (∃ line ∈ lines, IsBad line) →
        ∃ before line after, lines = before ++ line :: after ∧ (∀ other ∈ before, ¬IsBad other) ∧
          IsBad line ∧ readLines text = .error (before.length + 1) := by
  refine ⟨?_, ?_, ?_⟩
  · intro vs text hlisting
    obtain ⟨lines, hlines, hread⟩ := hlisting.exists_lines
    rw [readLines, Text.hasLines_iff.1 hlines, hread]
  · intro text
    refine ⟨Text.lines text, Text.hasLines_iff.2 rfl, fun lines hlines => ?_⟩
    exact (Text.hasLines_iff.1 hlines).symm
  · rintro text lines hlines ⟨bad, hmem, hbad⟩
    rw [readLines, Text.hasLines_iff.1 hlines]
    rcases readLinesFrom_cases 1 lines with ⟨vs, -, hnone⟩ | ⟨before, line, after, hsplit, hrest⟩
    · exact absurd hbad (hnone bad hmem)
    · rw [Nat.add_comm] at hrest
      exact ⟨before, line, after, hsplit, hrest⟩

/-- A blank line, a list, an empty line, a map with a line feed inside, and two blanks. -/
def listedText : String := "\t\r\n[null,true]\n\n\x7b\"k\":\"a\\nb\"\x7d\r\n  "

/-- A list, an empty line, and two lines of which only the second is a JSON text. -/
def spoiltText : String := "[]\n\n[null]]\r\nnull"

/-- The line feed inside the map ends no line, and the empty line is counted. -/
theorem readLines_recovers_or_locates_listedText :
    readLines listedText.toList
      = .ok [.list [.null, .bool true], .map [("k", .str "a\nb")]] ∧
    readLines spoiltText.toList = .error 3 := by
  obtain ⟨hrecovers, -, hlocates⟩ := readLines_recovers_or_locates
  constructor
  · have hblank : ∀ line : List Char, (line.all fun c => Text.isBlank c && c != '\n') = true →
        IsBlankLine line := by
      intro line h c hc
      simpa using List.all_eq_true.1 h c hc
    refine hrecovers _ _ ?_
    have hlast : Listing [] "  ".toList := .lastBlank (hblank _ (by decide))
    have hmap : (Value.map [("k", .str "a\nb")]).WellFormed := by
      simp [Value.WellFormed, Value.WellFormedMembers, Members.keys]
    have hlist : (Value.list [.null, .bool true]).WellFormed := ⟨trivial, trivial, trivial⟩
    exact .blank .crlf (hblank ['\t'] (by decide)) (.value .lf hlist (by decide)
      (.blank .lf (hblank [] rfl) (.value .crlf hmap (by decide) hlast)))
  · have hlines : Text.HasLines spoiltText.toList
        ["[]".toList, [], "[null]]".toList, "null".toList] := by
      rw [Text.hasLines_iff]
      decide +kernel
    obtain ⟨before, line, after, hsplit, hbefore, hbad, hanswer⟩ :=
      hlocates _ _ hlines ⟨"[null]]".toList, by simp, by decide +kernel⟩
    rw [hanswer]
    -- the two lines in front are not bad, and no line behind is the first
    rcases before with _ | ⟨first, _ | ⟨second, _ | ⟨third, before⟩⟩⟩ <;>
      simp only [List.nil_append, List.cons_append, List.cons.injEq] at hsplit
    · exact absurd (hsplit.1 ▸ hbad) (by decide +kernel)
    · exact absurd (hsplit.2.1 ▸ hbad) (by decide +kernel)
    · rfl
    · exact absurd (hsplit.2.2.1 ▸ by decide +kernel) (hbefore third (by simp))

end Json

end Logbook
