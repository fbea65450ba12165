import Logbook.Json.Token
import Logbook.Proofs.Double.ReadBack
import Mathlib.Data.List.Basic

/-!
# Numerals

What the reader of numbers makes of a text that was written: the digits in front of the point, the
digits behind it, and the exponent are found where they were put, provided that what follows the
number does not go on it.  Both layouts of a decimal are then one case, a `Spelling`.

* `Json.Token.Stops`: the texts that do not go on a number.
* `Json.Token.numeral?_append`: the parts of a numeral are found again.
* `Decimal.Spelling`, `Decimal.spelling_chars`: how a decimal is spelled.
* `Json.Token.number?_chars`: a number in range is read back from its text.
-/

namespace Logbook

/-- Only zero starts with a zero. -/
theorem Decimal.head?_toDigits {n : ℕ} (h : (Nat.toDigits 10 n).head? = some '0') : n = 0 := by
  induction n using Nat.strong_induction_on with
  | _ n ih =>
    rw [Nat.toDigits_eq_if (by decide)] at h
    split at h
    · rw [List.head?_cons, Option.some_inj, Nat.digitChar_eq_zero] at h
      exact h
    · rw [List.head?_append_of_ne_nil _ Nat.toDigits_ne_nil] at h
      have hquotient := ih (n / 10) (by omega) h
      omega

namespace Json.Token

/-- Holds of the texts that do not go on a number that stands in front of them. -/
def Stops (cs : List Char) : Prop :=
  ∀ c ∈ cs.head?, c.isDigit = false ∧ c ≠ '.' ∧ c ≠ 'e' ∧ c ≠ 'E'

theorem stops_nil : Stops [] := by simp [Stops]

theorem stops_cons {c : Char} (hc : c ∈ [',', ']', '}']) (cs : List Char) : Stops (c :: cs) := by
  intro d hd
  rw [List.head?_cons, Option.mem_some_iff] at hd
  rw [← hd]
  simp only [List.mem_cons, List.not_mem_nil, or_false] at hc
  rcases hc with rfl | rfl | rfl <;> exact ⟨rfl, by decide, by decide, by decide⟩

/-- Holds of the texts that hold digits only. -/
def AllDigits (cs : List Char) : Prop := ∀ c ∈ cs, c.isDigit = true

/-- Holds of the texts of digits that a number may start with. -/
structure IsWhole (cs : List Char) : Prop where
  digits : AllDigits cs
  ne_nil : cs ≠ []
  head : cs.head? = some '0' → cs.length = 1

/-- The text of the digits behind the point; without digits there is no point. -/
def fractionText (part : List Char) : List Char := if part.isEmpty then [] else '.' :: part

/-- The text of an exponent. -/
def exponentText : Option ℤ → List Char
  | none => []
  | some e => 'e' :: (if e < 0 then '-' else '+') :: Nat.toDigits 10 e.natAbs

/-! ## The parts of a numeral -/

theorem digits_append {ds rest : List Char} (hds : AllDigits ds)
    (hrest : ∀ c ∈ rest.head?, c.isDigit = false) : digits (ds ++ rest) = ds := by
  rw [digits, List.takeWhile_append_of_pos hds]
  cases rest with
  | nil => simp
  | cons c rest => simp [hrest c rfl]

theorem afterDigits_append {ds rest : List Char} (hds : AllDigits ds)
    (hrest : ∀ c ∈ rest.head?, c.isDigit = false) : afterDigits (ds ++ rest) = rest := by
  rw [afterDigits, List.dropWhile_append_of_pos hds]
  cases rest with
  | nil => simp
  | cons c rest => simp [hrest c rfl]

theorem allDigits_toDigits (n : ℕ) : AllDigits (Nat.toDigits 10 n) :=
  fun _ hc => Nat.isDigit_of_mem_toDigits (by decide) (by decide) hc

theorem valueOf_eq (ds : List Char) : valueOf ds = Nat.ofDigitChars 10 ds 0 := by
  simp only [valueOf, Nat.ofDigitChars_eq_foldl, Nat.mul_comm]

/-- An exponent is found again. -/
theorem exponent?_append (e : Option ℤ) {rest : List Char} (hrest : Stops rest) :
    exponent? (exponentText e ++ rest) = some (e, rest) := by
  cases e with
  | none =>
    cases rest with
    | nil => rfl
    | cons c rest =>
      obtain ⟨-, -, he, hE⟩ := hrest c rfl
      rw [exponentText, List.nil_append, exponent?, if_neg (by simp [he, hE])]
  | some e =>
    have hd := digits_append (allDigits_toDigits e.natAbs) fun c hc => (hrest c hc).1
    have ha := afterDigits_append (allDigits_toDigits e.natAbs) fun c hc => (hrest c hc).1
    have hne : (Nat.toDigits 10 e.natAbs).isEmpty = false := by
      rw [List.isEmpty_eq_false_iff]
      exact Nat.toDigits_ne_nil
    rw [exponentText, List.cons_append, exponent?, if_pos (Or.inl rfl)]
    by_cases he : e < 0
    · simp only [if_pos he, List.cons_append, exponentSign, hd, ha, hne, valueOf_eq,
        Nat.ofDigitChars_ten_toDigits]
      simp only [Bool.false_eq_true, if_false, if_true]
      congr 3
      omega
    · simp only [if_neg he, List.cons_append, exponentSign, hd, ha, hne, valueOf_eq,
        Nat.ofDigitChars_ten_toDigits]
      simp only [Bool.false_eq_true, if_false]
      congr 3
      omega

theorem not_isDigit_head_exponentText (e : Option ℤ) {rest : List Char} (hrest : Stops rest) :
    ∀ c ∈ (exponentText e ++ rest).head?, c.isDigit = false ∧ c ≠ '.' := by
  cases e with
  | none => exact fun c hc => ⟨(hrest c hc).1, (hrest c hc).2.1⟩
  | some e =>
    intro c hc
    rw [exponentText, List.cons_append, List.head?_cons, Option.mem_some_iff] at hc
    rw [← hc]
    decide

/-- The digits behind the point are found again. -/
theorem fraction?_append {part : List Char} (hpart : AllDigits part) {rest : List Char}
    (hrest : ∀ c ∈ rest.head?, c.isDigit = false ∧ c ≠ '.') :
    fraction? (fractionText part ++ rest) = some (part, rest) := by
  cases part with
  | nil =>
    cases rest with
    | nil => rfl
    | cons c rest =>
      have hc := (hrest c rfl).2
      simp [fractionText, fraction?, hc]
  | cons d part =>
    have hd := digits_append hpart fun c hc => (hrest c hc).1
    have ha := afterDigits_append hpart fun c hc => (hrest c hc).1
    have htext : fractionText (d :: part) ++ rest = '.' :: (d :: part ++ rest) := rfl
    rw [htext, fraction?, hd, ha]
    rfl

/-- The parts of a numeral are found again. -/
theorem numeral?_append (negative : Bool) {whole part : List Char} (e : Option ℤ) {rest : List Char}
    (hwhole : IsWhole whole) (hpart : AllDigits part) (hrest : Stops rest) :
    numeral? negative (whole ++ (fractionText part ++ (exponentText e ++ rest))) =
      some (⟨negative, ⟨valueOf (whole ++ part), e.getD 0 - part.length⟩,
        part.isEmpty && e.isNone⟩, rest) := by
  have hhead : ∀ c ∈ (fractionText part ++ (exponentText e ++ rest)).head?, c.isDigit = false := by
    cases part with
    | nil => exact fun c hc => (not_isDigit_head_exponentText e hrest c hc).1
    | cons d part =>
      intro c hc
      have hdot : '.' = c := Option.some_inj.1 hc
      rw [← hdot]
      rfl
  have hguard : ¬(whole.isEmpty ∨ (whole.head? = some '0' ∧ whole.length ≠ 1)) := by
    rintro (h | ⟨h, hne⟩)
    · exact hwhole.ne_nil (List.isEmpty_iff.1 h)
    · exact hne (hwhole.head h)
  unfold numeral?
  simp only [digits_append hwhole.digits hhead, afterDigits_append hwhole.digits hhead,
    if_neg hguard, fraction?_append hpart (not_isDigit_head_exponentText e hrest),
    exponent?_append e hrest]

/-! ## Digits of naturals -/

theorem AllDigits.append {as bs : List Char} (ha : AllDigits as) (hb : AllDigits bs) :
    AllDigits (as ++ bs) := by
  intro c hc
  rcases List.mem_append.1 hc with h | h
  · exact ha c h
  · exact hb c h

theorem allDigits_replicate (n : ℕ) : AllDigits (List.replicate n '0') := by
  intro c hc
  rw [List.eq_of_mem_replicate hc]
  rfl

theorem isWhole_toDigits (n : ℕ) : IsWhole (Nat.toDigits 10 n) where
  digits := allDigits_toDigits n
  ne_nil := Nat.toDigits_ne_nil
  head h := by
    rw [Decimal.head?_toDigits h]
    rfl

end Json.Token

/-! ## The layouts of a decimal -/

namespace Decimal

open Json.Token

/-- The parts of a numeral that spells a decimal, and what they are worth.  Zeros may have moved
from the exponent into the digits. -/
structure Spelling (d : Decimal) where
  whole : List Char
  part : List Char
  exponent : Option ℤ
  shift : ℕ
  isWhole : IsWhole whole
  allDigits : AllDigits part
  digits_eq : valueOf (whole ++ part) = d.digits * 10 ^ shift
  exponent_eq : exponent.getD 0 - part.length = d.exponent - shift
  not_plain : (part.isEmpty && exponent.isNone) = false

/-- The text of the parts. -/
def Spelling.text {d : Decimal} (s : d.Spelling) : List Char :=
  s.whole ++ (fractionText s.part ++ exponentText s.exponent)

theorem valueOf_numeral (d : Decimal) : valueOf d.numeral = d.digits := by
  rw [valueOf_eq, numeral, Nat.ofDigitChars_ten_toDigits]

theorem isWhole_take_numeral {d : Decimal} (hd : d.digits ≠ 0) {k : ℕ} (hk : 0 < k) :
    IsWhole (d.numeral.take k) where
  digits c hc := allDigits_toDigits _ c (List.mem_of_mem_take hc)
  ne_nil h := by
    rcases List.take_eq_nil_iff.1 h with h | h
    · omega
    · exact Nat.toDigits_ne_nil h
  head h := by
    rw [List.head?_take, if_neg (by omega)] at h
    exact absurd (head?_toDigits h) hd

theorem isWhole_numeral_append {d : Decimal} {zeros : ℕ} (hd : d.digits = 0 → zeros = 0) :
    IsWhole (d.numeral ++ List.replicate zeros '0') where
  digits := (allDigits_toDigits _).append (allDigits_replicate zeros)
  ne_nil := List.append_ne_nil_of_left_ne_nil Nat.toDigits_ne_nil _
  head h := by
    rw [numeral, List.head?_append_of_ne_nil _ Nat.toDigits_ne_nil] at h
    have hzero := head?_toDigits h
    rw [numeral, hzero, hd hzero]
    rfl

theorem allDigits_drop_numeral (d : Decimal) (k : ℕ) : AllDigits (d.numeral.drop k) :=
  fun c hc => allDigits_toDigits _ c (List.mem_of_mem_drop hc)

/-- The value of a text of digits, zeros behind it moved into a power of ten. -/
theorem valueOf_append_replicate (ds : List Char) (zeros : ℕ) :
    valueOf (ds ++ List.replicate zeros '0') = valueOf ds * 10 ^ zeros := by
  rw [valueOf_eq, valueOf_eq, Nat.ofDigitChars_append, Nat.ofDigitChars_replicate_zero,
    Nat.mul_comm]

theorem valueOf_replicate_append (zeros : ℕ) (ds : List Char) :
    valueOf (List.replicate zeros '0' ++ ds) = valueOf ds := by
  rw [valueOf_eq, valueOf_eq, Nat.ofDigitChars_append, Nat.ofDigitChars_replicate_zero,
    Nat.mul_zero]

theorem fractionText_of_ne_nil {part : List Char} (h : part ≠ []) :
    fractionText part = '.' :: part := by
  rw [fractionText, if_neg (by rwa [List.isEmpty_iff])]

theorem length_numeral_pos (d : Decimal) : 0 < d.numeral.length := Nat.length_toDigits_pos

/-- The layout with the point written out. -/
theorem spelling_positional {d : Decimal} (hd : d.digits = 0 → d.exponent = 0) :
    ∃ s : d.Spelling, d.positional = s.text := by
  have hlen := d.length_numeral_pos
  have hlead : d.leading = d.exponent + d.numeral.length - 1 := rfl
  unfold positional
  by_cases he : 0 ≤ d.exponent
  · rw [if_pos he]
    refine ⟨⟨d.numeral ++ List.replicate d.exponent.toNat '0', ['0'], none, d.exponent.toNat + 1,
      isWhole_numeral_append fun h => by rw [hd h]; rfl, allDigits_replicate 1, ?_, ?_, rfl⟩, rfl⟩
    · have hzero : ['0'] = List.replicate 1 '0' := rfl
      rw [hzero, valueOf_append_replicate, valueOf_append_replicate, valueOf_numeral,
        Nat.mul_assoc, ← pow_add]
    · rw [Option.getD_none, List.length_singleton]
      omega
  · have hne : d.digits ≠ 0 := fun h => he (hd h).ge
    rw [if_neg he]
    by_cases hl : 0 ≤ d.leading
    · have hdrop : d.numeral.drop (d.leading + 1).toNat ≠ [] := by
        rw [ne_eq, List.drop_eq_nil_iff]
        omega
      rw [if_pos hl]
      refine ⟨⟨d.numeral.take (d.leading + 1).toNat, d.numeral.drop (d.leading + 1).toNat, none, 0,
        isWhole_take_numeral hne (by omega), d.allDigits_drop_numeral _, ?_, ?_, ?_⟩, ?_⟩
      · rw [List.take_append_drop, valueOf_numeral, pow_zero, Nat.mul_one]
      · rw [Option.getD_none, List.length_drop]
        omega
      · rw [List.isEmpty_eq_false_iff.2 hdrop, Bool.false_and]
      · rw [Spelling.text, fractionText_of_ne_nil hdrop, exponentText, List.append_nil]
    · have hpart : List.replicate (-d.leading - 1).toNat '0' ++ d.numeral ≠ [] :=
        List.append_ne_nil_of_right_ne_nil _ Nat.toDigits_ne_nil
      rw [if_neg hl]
      refine ⟨⟨['0'], List.replicate (-d.leading - 1).toNat '0' ++ d.numeral, none, 0,
        isWhole_toDigits 0, (allDigits_replicate _).append (allDigits_toDigits _), ?_, ?_, ?_⟩, ?_⟩
      · have hzero : ['0'] = List.replicate 1 '0' := rfl
        rw [hzero, valueOf_replicate_append, valueOf_replicate_append, valueOf_numeral, pow_zero,
          Nat.mul_one]
      · rw [Option.getD_none, List.length_append, List.length_replicate]
        omega
      · rw [List.isEmpty_eq_false_iff.2 hpart, Bool.false_and]
      · rw [Spelling.text, fractionText_of_ne_nil hpart, exponentText, List.append_nil]
        rfl

/-- The layout with an exponent. -/
theorem spelling_scientific {d : Decimal} (hd : d.digits ≠ 0) :
    ∃ s : d.Spelling, d.scientific = s.text := by
  have hlen := d.length_numeral_pos
  have hlead : d.leading = d.exponent + d.numeral.length - 1 := rfl
  refine ⟨⟨d.numeral.take 1, d.numeral.drop 1, some d.leading, 0,
    isWhole_take_numeral hd (by decide), d.allDigits_drop_numeral 1, ?_, ?_, ?_⟩, ?_⟩
  · rw [List.take_append_drop, valueOf_numeral, pow_zero, Nat.mul_one]
  · rw [Option.getD_some, List.length_drop]
    omega
  · rw [Option.isNone_some, Bool.and_false]
  · have hfraction : fractionText (d.numeral.drop 1)
        = if d.numeral.length ≤ 1 then [] else '.' :: d.numeral.drop 1 := by
      simp only [fractionText, List.isEmpty_iff, List.drop_eq_nil_iff]
    rw [Spelling.text, hfraction, scientific, List.append_assoc]
    rfl

/-- A decimal is spelled by its text. -/
theorem spelling_chars {d : Decimal} (hd : d.digits = 0 → d.exponent = 0) :
    ∃ s : d.Spelling, d.chars = s.text := by
  unfold chars
  split
  · exact spelling_positional hd
  · rename_i hl
    refine spelling_scientific fun h => hl ?_
    have hlead : d.leading = 0 := by
      rw [leading, numeral, h, hd h]
      rfl
    omega

end Decimal

/-! ## Numbers -/

namespace Json.Token

theorem IsWhole.exists_cons {cs : List Char} (h : IsWhole cs) :
    ∃ c tail, cs = c :: tail ∧ c.isDigit = true := by
  obtain ⟨c, tail, rfl⟩ := List.exists_cons_of_ne_nil h.ne_nil
  exact ⟨c, tail, rfl, h.digits c List.mem_cons_self⟩

theorem number?_of_isDigit {c : Char} (hc : c.isDigit = true) {cs rest : List Char}
    {numeral : Number.Numeral} (h : numeral? false (c :: cs) = some (numeral, rest)) :
    number? (c :: cs) = (Number.ofNumeral? numeral).map fun n => (n, rest) := by
  have hminus : c ≠ '-' := by
    rintro rfl
    exact absurd hc (by decide)
  unfold number?
  split
  · rename_i heq
    exact absurd (List.cons.inj heq).1 hminus
  · simp only [h]

theorem number?_of_minus {cs rest : List Char} {numeral : Number.Numeral}
    (h : numeral? true cs = some (numeral, rest)) :
    number? ('-' :: cs) = (Number.ofNumeral? numeral).map fun n => (n, rest) := by
  unfold number?
  simp only [h]

theorem ofNumeral?_of_not_plain {n : Number.Numeral} (h : n.plain = false) :
    Number.ofNumeral? n = (Double.ofDecimal? n.negative n.decimal).map .float := by
  simp only [Number.ofNumeral?, h, Bool.false_eq_true, false_and, if_false]

/-- A double is read back from its text. -/
theorem number?_double (x : Double) {rest : List Char} (hrest : Stops rest) :
    number? (x.chars ++ rest) = some (.float x, rest) := by
  obtain ⟨s, hs⟩ := Decimal.spelling_chars x.exponent_shortest
  have htext : x.shortest.chars ++ rest
      = s.whole ++ (fractionText s.part ++ (exponentText s.exponent ++ rest)) := by
    rw [hs, Decimal.Spelling.text, List.append_assoc, List.append_assoc]
  have hnumeral := fun negative =>
    numeral?_append negative s.exponent s.isWhole s.allDigits hrest
  have hdouble : Double.ofDecimal? x.negative
      ⟨valueOf (s.whole ++ s.part), s.exponent.getD 0 - s.part.length⟩ = some x := by
    rw [s.digits_eq, s.exponent_eq, Double.ofDecimal?_shift, Double.ofDecimal?_shortest]
  unfold Double.chars
  cases hx : x.negative with
  | true =>
    rw [if_pos rfl, List.cons_append, htext, number?_of_minus (hnumeral true),
      ofNumeral?_of_not_plain s.not_plain, ← hx, hdouble]
    rfl
  | false =>
    obtain ⟨c, tail, hwhole, hc⟩ := s.isWhole.exists_cons
    have hread := hnumeral false
    rw [hwhole, List.cons_append] at hread
    rw [if_neg Bool.false_ne_true, htext, hwhole, List.cons_append, number?_of_isDigit hc hread,
      ofNumeral?_of_not_plain s.not_plain, ← hwhole, ← hx, hdouble]
    rfl

theorem numeral?_toDigits (negative : Bool) (n : ℕ) {rest : List Char} (hrest : Stops rest) :
    numeral? negative (Nat.toDigits 10 n ++ rest) = some (⟨negative, ⟨n, 0⟩, true⟩, rest) := by
  have hpart : AllDigits [] := fun _ hc => absurd hc List.not_mem_nil
  have h := numeral?_append negative none (isWhole_toDigits n) hpart hrest
  rwa [List.append_nil, valueOf_eq, Nat.ofDigitChars_ten_toDigits] at h

/-- An integer of 64 bits is read back from its text. -/
theorem number?_int {i : ℤ} (hi : (Number.int i).InRange) {rest : List Char} (hrest : Stops rest) :
    number? (Number.intChars i ++ rest) = some (.int i, rest) := by
  obtain ⟨hlo, hhi⟩ := hi
  unfold Number.intChars
  by_cases hneg : i < 0
  · have habs : -((i.natAbs : ℕ) : ℤ) = i := by omega
    rw [if_pos hneg, List.cons_append, number?_of_minus (numeral?_toDigits true _ hrest)]
    have hzero : (i.natAbs : ℤ) ≠ 0 := by omega
    simp only [Number.ofNumeral?, Bool.true_eq_false, false_and, and_false, if_false, true_and,
      habs, if_pos (And.intro hzero hlo)]
    rfl
  · have habs : ((i.natAbs : ℕ) : ℤ) = i := by omega
    obtain ⟨c, tail, hwhole, hc⟩ := (isWhole_toDigits i.natAbs).exists_cons
    have hread := numeral?_toDigits false i.natAbs hrest
    rw [hwhole, List.cons_append] at hread
    rw [if_neg hneg, hwhole, List.cons_append, number?_of_isDigit hc hread]
    simp only [Number.ofNumeral?, habs, true_and, if_pos hhi]
    rfl

/-- A number in range is read back from its text. -/
theorem number?_chars {n : Number} (hn : n.InRange) {rest : List Char} (hrest : Stops rest) :
    number? (n.chars ++ rest) = some (n, rest) := by
  cases n with
  | int i => exact number?_int hn hrest
  | float x => exact number?_double x hrest

end Json.Token

end Logbook
