import Logbook.Json.Writer
import Logbook.Proofs.Json.Numeral

/-!
# Tokens of written scalars

A string or a number that was written is the next token of its text, and the token leaves what
followed.  A string needs nothing of what follows it; a number needs that it stops there.

* `Json.Token.stringFrom_escape_append`: what stands for a character is read as the character.
* `Json.Token.next?_writeString`, `Json.Token.next?_chars`: strings and numbers.
-/

namespace Logbook.Json

namespace Token

/-! ## Strings -/

theorem hexDigit?_hexDigit {n : ℕ} (hn : n < 16) : hexDigit? (hexDigit n) = some n := by
  have h : ∀ n < 16, hexDigit? (hexDigit n) = some n := by decide
  exact h n hn

theorem hexQuad?_hexDigit {n : ℕ} (hn : n < 32) (rest : List Char) :
    hexQuad? ('0' :: '0' :: hexDigit (n / 16) :: hexDigit (n % 16) :: rest) = some (n, rest) := by
  have hzero : hexDigit? '0' = some 0 := rfl
  simp only [hexQuad?, hzero, hexDigit?_hexDigit (show n / 16 < 16 by omega),
    hexDigit?_hexDigit (show n % 16 < 16 by omega)]
  congr 2
  omega

/-- A control character is read from its four hexadecimal digits. -/
theorem escape?_control {c : Char} (hc : c.toNat < 32) (rest : List Char) :
    escape? ('u' :: '0' :: '0' :: hexDigit (c.toNat / 16) :: hexDigit (c.toNat % 16) :: rest) =
      some (c, rest) := by
  simp only [escape?, hexQuad?_hexDigit hc, surrogate?]
  rw [if_pos (Or.inl (by omega)), Char.ofNat_toNat]

theorem stringFrom_quote (done : String) (rest : List Char) :
    stringFrom done ('"' :: rest) = some (done, rest) := by
  rw [stringFrom, if_pos rfl]

theorem stringFrom_escape {done : String} {cs rest : List Char} {c : Char}
    (h : escape? cs = some (c, rest)) :
    stringFrom done ('\\' :: cs) = stringFrom (done.push c) rest := by
  rw [stringFrom, if_neg (by decide), if_pos rfl]
  split
  · rename_i h'
    rw [h] at h'
    obtain ⟨rfl, rfl⟩ := Prod.mk.inj (Option.some.inj h')
    rfl
  · rename_i h'
    rw [h] at h'
    exact absurd h' (by simp)

/-- What stands for a character is read as the character. -/
theorem stringFrom_escape_append (done : String) (c : Char) (rest : List Char) :
    stringFrom done (escape c ++ rest) = stringFrom (done.push c) rest := by
  unfold escape
  by_cases hq : c = '"'
  · rw [if_pos hq, hq]
    exact stringFrom_escape rfl
  by_cases hb : c = '\\'
  · rw [if_neg hq, if_pos hb, hb]
    exact stringFrom_escape rfl
  rw [if_neg hq, if_neg hb]
  by_cases hc : c.toNat < 0x20
  · rw [if_pos hc]
    split_ifs with h1 h2 h3 h4 h5
    · exact h1 ▸ stringFrom_escape rfl
    · exact h2 ▸ stringFrom_escape rfl
    · exact h3 ▸ stringFrom_escape rfl
    · exact h4 ▸ stringFrom_escape rfl
    · exact h5 ▸ stringFrom_escape rfl
    · exact stringFrom_escape (escape?_control hc rest)
  · rw [if_neg hc, List.singleton_append, stringFrom, if_neg hq, if_neg hb, if_neg hc]

theorem stringFrom_flatMap_escape (s : List Char) (done : String) (rest : List Char) :
    stringFrom done (s.flatMap escape ++ '"' :: rest) = some (done ++ String.ofList s, rest) := by
  induction s generalizing done with
  | nil =>
    rw [List.flatMap_nil, List.nil_append, stringFrom_quote]
    simp
  | cons c s ih =>
    have hpush : done.push c ++ String.ofList s = done ++ String.ofList (c :: s) := by
      rw [← String.toList_inj]
      simp
    rw [List.flatMap_cons, List.append_assoc, stringFrom_escape_append, ih, hpush]

/-- A string that was written is the next token. -/
theorem next?_writeString (s : String) (tail : List Char) :
    next? (writeString s tail) = some (.string s, tail) := by
  have hread := stringFrom_flatMap_escape s.toList "" tail
  rw [String.ofList_toList, String.empty_append] at hread
  have hfirst : first? ('"' :: (s.toList.flatMap escape ++ '"' :: tail))
      = (stringFrom "" (s.toList.flatMap escape ++ '"' :: tail)).map
          fun read => (.string read.1, read.2) := rfl
  rw [writeString, escapeAll_eq]
  exact hfirst.trans (by rw [hread]; rfl)

/-! ## Numbers -/

/-- Holds of the characters with which a number starts. -/
def StartsNumber (c : Char) : Prop := c = '-' ∨ c.isDigit = true

theorem exists_cons_spelling {d : Decimal} (s : d.Spelling) :
    ∃ c cs, s.text = c :: cs ∧ StartsNumber c := by
  obtain ⟨c, cs, hwhole, hc⟩ := s.isWhole.exists_cons
  refine ⟨c, cs ++ (fractionText s.part ++ exponentText s.exponent), ?_, Or.inr hc⟩
  rw [Decimal.Spelling.text, hwhole, List.cons_append]

theorem exists_cons_chars (n : Number) : ∃ c cs, n.chars = c :: cs ∧ StartsNumber c := by
  cases n with
  | int i =>
    show ∃ c cs, Number.intChars i = c :: cs ∧ StartsNumber c
    unfold Number.intChars
    split
    · exact ⟨_, _, rfl, Or.inl rfl⟩
    · obtain ⟨c, cs, hcs, hc⟩ := (isWhole_toDigits i.natAbs).exists_cons
      exact ⟨c, cs, hcs, Or.inr hc⟩
  | float x =>
    show ∃ c cs, x.chars = c :: cs ∧ StartsNumber c
    unfold Double.chars
    split
    · exact ⟨_, _, rfl, Or.inl rfl⟩
    · obtain ⟨s, hs⟩ := Decimal.spelling_chars x.exponent_shortest
      exact hs ▸ exists_cons_spelling s

theorem StartsNumber.isBlank_eq {c : Char} (hc : StartsNumber c) : isBlank c = false := by
  cases hb : isBlank c with
  | false => rfl
  | true =>
    simp only [isBlank, Bool.or_eq_true, beq_iff_eq] at hb
    rcases hc with rfl | hc
    · exact absurd hb (by decide)
    · rcases hb with ((rfl | rfl) | rfl) | rfl <;> exact absurd hc (by decide)

theorem first?_of_startsNumber {c : Char} (hc : StartsNumber c) (cs : List Char) :
    first? (c :: cs) = (number? (c :: cs)).map fun (n, rest) => (.scalar (.num n), rest) := by
  unfold first?
  split <;> rename_i heq
  case h_12 => rfl
  case h_1 => exact absurd heq (List.cons_ne_nil c cs)
  all_goals
    obtain ⟨rfl, -⟩ := List.cons.inj heq
    rcases hc with hc | hc <;> exact absurd hc (by decide)

/-- A number that was written is the next token, if what follows does not go on it. -/
theorem next?_chars {n : Number} (hn : n.InRange) {tail : List Char} (htail : Stops tail) :
    next? (n.chars ++ tail) = some (.scalar (.num n), tail) := by
  have hread := number?_chars hn htail
  obtain ⟨c, cs, hcs, hc⟩ := exists_cons_chars n
  rw [hcs, List.cons_append] at hread ⊢
  rw [next?, List.dropWhile_cons_of_neg (by simp [hc.isBlank_eq]), first?_of_startsNumber hc, hread]
  rfl

end Token

end Logbook.Json
