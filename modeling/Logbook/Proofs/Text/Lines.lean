import Logbook.Text.Blank
import Mathlib.Data.List.TakeWhile

/-!
# The lines of a text

The lines of a text are found by looking for line feeds one after the other, and a carriage return
in front of a line feed is taken away with it.  Here it is said what lines a text has without looking
for anything: it is put together from them.  Each has its line break behind it, but the last one may
stand without.  For this to leave no choice, no line holds a line feed, no line ends in a carriage
return that could belong to the break behind it, and a last line without a break is not empty.

* `Text.HasLines`: a text and its lines.
* `Text.HasLines.newline`, `Text.HasLines.exists_ended`: what a line feed, and either break, ends.
* `Text.hasLines_iff`: a text has exactly the lines that are found in it.
-/

namespace Logbook.Text

/-- What ends a line. -/
inductive LineBreak where
  | lf
  | crlf

/-- The characters of a line break. -/
def LineBreak.chars : LineBreak → List Char
  | lf => ['\n']
  | crlf => ['\r', '\n']

/-- Holds of a text and its lines. -/
inductive HasLines : List Char → List (List Char) → Prop
  | empty : HasLines [] []
  | unended {line : List Char} (hline : '\n' ∉ line) (hne : line ≠ []) : HasLines line [line]
  | ended {line rest : List Char} {lines : List (List Char)} (ending : LineBreak)
      (hline : '\n' ∉ line) (hending : ending = .lf → line.getLast? ≠ some '\r')
      (hrest : HasLines rest lines) : HasLines (line ++ ending.chars ++ rest) (line :: lines)

/-! ## Line feeds -/

theorem chomp_concat (line : List Char) : chomp (line ++ ['\r']) = line := by
  rw [chomp, List.getLast?_concat, if_pos rfl, List.dropLast_concat]

theorem chomp_of_getLast?_ne {line : List Char} (h : line.getLast? ≠ some '\r') :
    chomp line = line :=
  if_neg h

theorem append_crlf (line rest : List Char) :
    line ++ LineBreak.crlf.chars ++ rest = line ++ ['\r'] ++ '\n' :: rest := by
  simp [LineBreak.chars]

theorem append_lf (line rest : List Char) :
    line ++ LineBreak.lf.chars ++ rest = line ++ '\n' :: rest := by
  simp [LineBreak.chars]

namespace HasLines

variable {line rest : List Char} {lines : List (List Char)}

/-- A line feed ends what stands in front of it, less a carriage return at its end. -/
theorem newline (hline : '\n' ∉ line) (hrest : HasLines rest lines) :
    HasLines (line ++ '\n' :: rest) (chomp line :: lines) := by
  by_cases hreturn : line.getLast? = some '\r'
  · obtain ⟨front, rfl⟩ := List.getLast?_eq_some_iff.1 hreturn
    have hfront : '\n' ∉ front := fun h => hline (List.mem_append_left _ h)
    rw [chomp_concat, ← append_crlf]
    exact .ended .crlf hfront (by simp) hrest
  · rw [chomp_of_getLast?_ne hreturn, ← append_lf]
    exact .ended .lf hline (fun _ => hreturn) hrest

/-- Either break ends what stands in front of it, but a line feed may take a carriage return with
it. -/
theorem exists_ended (ending : LineBreak) (hline : '\n' ∉ line) (hrest : HasLines rest lines) :
    ∃ kept, (kept = line ∨ kept = chomp line) ∧
      HasLines (line ++ ending.chars ++ rest) (kept :: lines) := by
  cases ending with
  | lf =>
    rw [append_lf]
    exact ⟨chomp line, Or.inr rfl, hrest.newline hline⟩
  | crlf =>
    have hreturn : '\n' ∉ line ++ ['\r'] := by simp [hline]
    have h := hrest.newline hreturn
    rw [chomp_concat] at h
    rw [append_crlf]
    exact ⟨line, Or.inl rfl, h⟩

end HasLines

/-! ## The lines that are found -/

theorem linesFrom_nil (done : List (List Char)) : linesFrom done [] = done.reverse := by
  rw [linesFrom]
  rfl

/-- What stands in front of the first line feed, and what follows. -/
theorem linesFrom_of_split {done : List (List Char)} {cs line more : List Char} (hne : cs ≠ [])
    (hline : cs.takeWhile (· != '\n') = line) (hmore : cs.dropWhile (· != '\n') = more) :
    linesFrom done cs
      = more.tail?.elim (line :: done).reverse fun rest => linesFrom (chomp line :: done) rest := by
  rw [linesFrom, if_neg (by rwa [List.isEmpty_iff]), hline]
  split
  · rename_i hnil
    rw [← hmore, hnil]
    rfl
  · rename_i hcons
    rw [← hmore, hcons]
    rfl

section Plain

variable {line : List Char} (hline : '\n' ∉ line)
include hline

theorem ne_newline_of_mem : ∀ c ∈ line, (c != '\n') = true := by
  intro c hc
  rw [bne_iff_ne]
  rintro rfl
  exact hline hc

theorem linesFrom_unended (done : List (List Char)) (hne : line ≠ []) :
    linesFrom done line = (line :: done).reverse := by
  rw [linesFrom_of_split hne (List.takeWhile_eq_self_iff.2 (ne_newline_of_mem hline))
    (List.dropWhile_eq_nil_iff.2 (ne_newline_of_mem hline))]
  rfl

theorem linesFrom_newline (done : List (List Char)) (rest : List Char) :
    linesFrom done (line ++ '\n' :: rest) = linesFrom (chomp line :: done) rest := by
  have hfirst : (line ++ '\n' :: rest).takeWhile (· != '\n') = line := by
    rw [List.takeWhile_append_of_pos (ne_newline_of_mem hline)]
    simp
  have hothers : (line ++ '\n' :: rest).dropWhile (· != '\n') = '\n' :: rest := by
    rw [List.dropWhile_append_of_pos (ne_newline_of_mem hline)]
    simp
  rw [linesFrom_of_split (by simp) hfirst hothers]
  rfl

end Plain

theorem HasLines.linesFrom_eq {cs : List Char} {lines : List (List Char)} (h : HasLines cs lines)
    (done : List (List Char)) : linesFrom done cs = done.reverse ++ lines := by
  induction h generalizing done with
  | empty => rw [linesFrom_nil, List.append_nil]
  | unended hline hne => rw [linesFrom_unended hline done hne, List.reverse_cons]
  | @ended line rest lines ending hline hending _ ih =>
    cases ending with
    | lf =>
      rw [append_lf, linesFrom_newline hline, chomp_of_getLast?_ne (hending rfl), ih,
        List.reverse_cons, List.append_assoc]
      rfl
    | crlf =>
      have hreturn : '\n' ∉ line ++ ['\r'] := by simp [hline]
      rw [append_crlf, linesFrom_newline hreturn, chomp_concat, ih, List.reverse_cons,
        List.append_assoc]
      rfl

/-- Every text has lines. -/
theorem exists_hasLines (cs : List Char) : ∃ lines, HasLines cs lines := by
  induction h : cs.length using Nat.strong_induction_on generalizing cs with
  | _ n ih =>
    by_cases hmem : '\n' ∈ cs
    · obtain ⟨line, rest, rfl, hline⟩ := List.eq_append_cons_of_mem hmem
      have hshorter : rest.length < n := by
        rw [← h, List.length_append, List.length_cons]
        omega
      obtain ⟨lines, hlines⟩ := ih rest.length hshorter rest rfl
      exact ⟨_, hlines.newline hline⟩
    · by_cases hne : cs = []
      · exact ⟨[], hne ▸ .empty⟩
      · exact ⟨[cs], .unended hmem hne⟩

/-- **A text has exactly the lines that are found in it.** -/
theorem hasLines_iff {cs : List Char} {found : List (List Char)} :
    HasLines cs found ↔ lines cs = found := by
  have heq : ∀ {found}, HasLines cs found → lines cs = found := fun h => h.linesFrom_eq []
  refine ⟨heq, ?_⟩
  rintro rfl
  obtain ⟨found, hfound⟩ := exists_hasLines cs
  rwa [heq hfound]

end Logbook.Text
