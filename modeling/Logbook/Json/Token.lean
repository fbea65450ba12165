import Logbook.Value

/-!
# JSON tokens

The reader of JSON text takes one token after another from the front of the characters.  White
space is space, tab, line feed and carriage return.  A string may hold any character but the
control characters below U+0020, a quote or a backslash; an escaped surrogate must be half of a
pair.  A number has no leading zeros, and digits on both sides of its point.

* `Token.next?`: the first token and what follows it.
* `Token.length_lt_of_next?`: a token takes at least one character.
-/

namespace Logbook.Json

/-- A token.  Strings stand apart from the other scalars because they also serve as keys. -/
inductive Token where
  | openMap
  | closeMap
  | openList
  | closeList
  | colon
  | comma
  | string (s : String)
  | scalar (v : Value)
deriving Repr

namespace Token

/-- The white space between tokens. -/
def isBlank (c : Char) : Bool := c == ' ' || c == '\n' || c == '\t' || c == '\r'

/-! ## Strings -/

/-- The value of a hexadecimal digit. -/
def hexDigit? (c : Char) : Option Nat :=
  if '0' ≤ c ∧ c ≤ '9' then some (c.toNat - '0'.toNat)
  else if 'a' ≤ c ∧ c ≤ 'f' then some (c.toNat - 'a'.toNat + 10)
  else if 'A' ≤ c ∧ c ≤ 'F' then some (c.toNat - 'A'.toNat + 10)
  else none

/-- Four hexadecimal digits. -/
def hexQuad? : List Char → Option (Nat × List Char)
  | a :: b :: c :: d :: rest =>
    match hexDigit? a, hexDigit? b, hexDigit? c, hexDigit? d with
    | some a, some b, some c, some d => some (((a * 16 + b) * 16 + c) * 16 + d, rest)
    | _, _, _, _ => none
  | _ => none

/-- The character of an escape `\u` once its four digits are read as `unit`: a leading
surrogate takes a second escape with it. -/
def surrogate? (unit : Nat) (rest : List Char) : Option (Char × List Char) :=
  if unit < 0xD800 ∨ 0xDFFF < unit then some (Char.ofNat unit, rest)
  else if 0xDC00 ≤ unit then none
  else
    match rest with
    | '\\' :: 'u' :: rest =>
      match hexQuad? rest with
      | some (low, rest) =>
        if 0xDC00 ≤ low ∧ low ≤ 0xDFFF then
          some (Char.ofNat (0x10000 + (unit - 0xD800) * 0x400 + (low - 0xDC00)), rest)
        else
          none
      | none => none
    | _ => none

/-- The character of an escape, read after its backslash. -/
def escape? : List Char → Option (Char × List Char)
  | '"' :: rest => some ('"', rest)
  | '\\' :: rest => some ('\\', rest)
  | '/' :: rest => some ('/', rest)
  | 'b' :: rest => some ('\x08', rest)
  | 'f' :: rest => some ('\x0c', rest)
  | 'n' :: rest => some ('\n', rest)
  | 'r' :: rest => some ('\r', rest)
  | 't' :: rest => some ('\t', rest)
  | 'u' :: rest =>
    match hexQuad? rest with
    | some (unit, rest) => surrogate? unit rest
    | none => none
  | _ => none

theorem length_of_hexQuad? {cs rest : List Char} {n : Nat} (h : hexQuad? cs = some (n, rest)) :
    rest.length < cs.length := by
  unfold hexQuad? at h
  split at h
  · split at h
    · simp only [Option.some.injEq, Prod.mk.injEq] at h
      simp only [← h.2, List.length_cons]
      omega
    · simp at h
  · simp at h

theorem length_of_surrogate? {cs rest : List Char} {unit : Nat} {c : Char}
    (h : surrogate? unit cs = some (c, rest)) : rest.length ≤ cs.length := by
  unfold surrogate? at h
  split at h
  · simp only [Option.some.injEq, Prod.mk.injEq] at h
    simp [h.2]
  · split at h
    · simp at h
    · split at h
      · split at h
        · rename_i hq
          split at h
          · simp only [Option.some.injEq, Prod.mk.injEq] at h
            have := length_of_hexQuad? hq
            simp only [← h.2, List.length_cons]
            omega
          · simp at h
        · simp at h
      · simp at h

theorem length_of_escape? {cs rest : List Char} {c : Char} (h : escape? cs = some (c, rest)) :
    rest.length < cs.length := by
  unfold escape? at h
  split at h
  case h_9 =>
    split at h
    · rename_i hq
      have h₁ := length_of_hexQuad? hq
      have h₂ := length_of_surrogate? h
      simp only [List.length_cons]
      omega
    · simp at h
  case h_10 => simp at h
  all_goals
    simp only [Option.some.injEq, Prod.mk.injEq] at h
    simp [← h.2]

/-- The rest of a string up to its closing quote; `done` holds what is read already. -/
def stringFrom (done : String) (cs : List Char) : Option (String × List Char) :=
  match cs with
  | [] => none
  | c :: rest =>
    if c = '"' then some (done, rest)
    else if c = '\\' then
      match _h : escape? rest with
      | some (c, rest) => stringFrom (done.push c) rest
      | none => none
    else if c.toNat < 0x20 then none
    else stringFrom (done.push c) rest
termination_by cs.length
decreasing_by
  · have := length_of_escape? _h
    simp only [List.length_cons]
    omega
  · simp

theorem length_of_stringFrom {cs rest : List Char} {done s : String}
    (h : stringFrom done cs = some (s, rest)) : rest.length < cs.length := by
  fun_induction stringFrom done cs with
  | case1 => simp at h
  | case2 =>
    simp only [Option.some.injEq, Prod.mk.injEq] at h
    simp [← h.2]
  | case3 _ _ _ _ he _ ih =>
    have h₁ := length_of_escape? he
    have h₂ := ih h
    simp only [List.length_cons]
    omega
  | case4 => simp at h
  | case5 => simp at h
  | case6 _ _ _ _ _ _ ih =>
    have := ih h
    simp only [List.length_cons]
    omega

/-! ## Numbers -/

/-- The decimal digits at the front. -/
def digits (cs : List Char) : List Char := cs.takeWhile Char.isDigit

/-- What follows the digits at the front. -/
def afterDigits (cs : List Char) : List Char := cs.dropWhile Char.isDigit

/-- The number that decimal digits spell. -/
def valueOf (ds : List Char) : Nat := ds.foldl (fun n c => n * 10 + (c.toNat - '0'.toNat)) 0

/-- The digits after a point, none when there is no point. -/
def fraction? : List Char → Option (List Char × List Char)
  | '.' :: rest => if (digits rest).isEmpty then none else some (digits rest, afterDigits rest)
  | cs => some ([], cs)

/-- The sign of an exponent, which may be left out, and what follows it. -/
def exponentSign : List Char → Bool × List Char
  | '+' :: rest => (false, rest)
  | '-' :: rest => (true, rest)
  | rest => (false, rest)

/-- The exponent, none written when there is no `e`. -/
def exponent? : List Char → Option (Option Int × List Char)
  | c :: rest =>
    if c = 'e' ∨ c = 'E' then
      let (negative, rest) := exponentSign rest
      if (digits rest).isEmpty then none
      else
        let size : Int := valueOf (digits rest)
        some (some (if negative then -size else size), afterDigits rest)
    else some (none, c :: rest)
  | [] => some (none, [])

/-- A numeral without its sign. -/
def numeral? (negative : Bool) (cs : List Char) : Option (Number.Numeral × List Char) :=
  let whole := digits cs
  if whole.isEmpty ∨ (whole.head? = some '0' ∧ whole.length ≠ 1) then none
  else
    match fraction? (afterDigits cs) with
    | none => none
    | some (part, rest) =>
      match exponent? rest with
      | none => none
      | some (exponent, rest) =>
        some (⟨negative, ⟨valueOf (whole ++ part), exponent.getD 0 - part.length⟩,
          part.isEmpty && exponent.isNone⟩, rest)

/-- A number, read together with its sign. -/
def number? (cs : List Char) : Option (Number × List Char) :=
  let read := match cs with
    | '-' :: rest => numeral? true rest
    | cs => numeral? false cs
  match read with
  | none => none
  | some (numeral, rest) => (Number.ofNumeral? numeral).map fun n => (n, rest)

theorem length_afterDigits_le (cs : List Char) : (afterDigits cs).length ≤ cs.length :=
  (List.dropWhile_sublist _).length_le

theorem length_afterDigits_lt {cs : List Char} (h : (digits cs).isEmpty = false) :
    (afterDigits cs).length < cs.length := by
  have := congrArg List.length (@List.takeWhile_append_dropWhile _ Char.isDigit cs)
  simp only [List.length_append] at this
  have hpos : 0 < (digits cs).length := by
    cases hd : digits cs with
    | nil => simp [hd] at h
    | cons => simp
  simp only [digits, afterDigits] at *
  omega

theorem length_of_fraction? {cs part rest : List Char} (h : fraction? cs = some (part, rest)) :
    rest.length ≤ cs.length := by
  unfold fraction? at h
  split at h
  · split at h
    · simp at h
    · simp only [Option.some.injEq, Prod.mk.injEq] at h
      rw [← h.2]
      exact Nat.le_trans (length_afterDigits_le _) (by simp)
  · simp only [Option.some.injEq, Prod.mk.injEq] at h
    simp [h.2]

theorem length_exponentSign_le (cs : List Char) : (exponentSign cs).2.length ≤ cs.length := by
  unfold exponentSign
  split <;> simp

theorem length_of_exponent? {cs rest : List Char} {e : Option Int}
    (h : exponent? cs = some (e, rest)) : rest.length ≤ cs.length := by
  unfold exponent? at h
  split at h
  · rename_i tail
    split at h
    · dsimp only at h
      split at h
      · simp at h
      · simp only [Option.some.injEq, Prod.mk.injEq] at h
        have h₁ := length_afterDigits_le (exponentSign tail).2
        have h₂ := length_exponentSign_le tail
        simp only [← h.2, List.length_cons]
        omega
    · simp only [Option.some.injEq, Prod.mk.injEq] at h
      simp [← h.2]
  · simp only [Option.some.injEq, Prod.mk.injEq] at h
    simp [← h.2]

theorem length_of_numeral? {cs rest : List Char} {negative : Bool} {n : Number.Numeral}
    (h : numeral? negative cs = some (n, rest)) : rest.length < cs.length := by
  unfold numeral? at h
  dsimp only at h
  split at h
  · simp at h
  · rename_i hw
    split at h
    · simp at h
    · rename_i hf
      split at h
      · simp at h
      · rename_i he
        simp only [Option.some.injEq, Prod.mk.injEq] at h
        have h₁ := length_of_fraction? hf
        have h₂ := length_of_exponent? he
        have h₃ : (afterDigits cs).length < cs.length := length_afterDigits_lt (by simp_all)
        rw [← h.2]
        omega

theorem length_of_number? {cs rest : List Char} {n : Number}
    (h : number? cs = some (n, rest)) : rest.length < cs.length := by
  unfold number? at h
  dsimp only at h
  split at h
  · simp at h
  · rename_i hn
    simp only [Option.map_eq_some_iff, Prod.mk.injEq] at h
    obtain ⟨_, _, _, rfl⟩ := h
    split at hn
    · exact Nat.lt_trans (length_of_numeral? hn) (by simp)
    · exact length_of_numeral? hn

/-! ## Tokens -/

/-- The token at the front, where no white space is left. -/
def first? : List Char → Option (Token × List Char)
  | [] => none
  | '{' :: rest => some (.openMap, rest)
  | '}' :: rest => some (.closeMap, rest)
  | '[' :: rest => some (.openList, rest)
  | ']' :: rest => some (.closeList, rest)
  | ':' :: rest => some (.colon, rest)
  | ',' :: rest => some (.comma, rest)
  | '"' :: rest => (stringFrom "" rest).map fun (s, rest) => (.string s, rest)
  | 'n' :: 'u' :: 'l' :: 'l' :: rest => some (.scalar .null, rest)
  | 't' :: 'r' :: 'u' :: 'e' :: rest => some (.scalar (.bool true), rest)
  | 'f' :: 'a' :: 'l' :: 's' :: 'e' :: rest => some (.scalar (.bool false), rest)
  | cs => (number? cs).map fun (n, rest) => (.scalar (.num n), rest)

/-- The first token and what follows it; none at the end of the text or where no token starts. -/
def next? (cs : List Char) : Option (Token × List Char) := first? (cs.dropWhile isBlank)

theorem length_of_first? {cs rest : List Char} {t : Token} (h : first? cs = some (t, rest)) :
    rest.length < cs.length := by
  unfold first? at h
  split at h
  case h_1 => simp at h
  case h_8 =>
    simp only [Option.map_eq_some_iff, Prod.mk.injEq, Prod.exists] at h
    obtain ⟨_, _, hs, _, rfl⟩ := h
    exact Nat.lt_trans (length_of_stringFrom hs) (by simp)
  case h_12 =>
    simp only [Option.map_eq_some_iff, Prod.mk.injEq, Prod.exists] at h
    obtain ⟨_, _, hs, _, rfl⟩ := h
    exact length_of_number? hs
  all_goals
    simp only [Option.some.injEq, Prod.mk.injEq] at h
    simp only [← h.2, List.length_cons]
    omega

theorem length_lt_of_next? {cs rest : List Char} {t : Token} (h : next? cs = some (t, rest)) :
    rest.length < cs.length :=
  Nat.lt_of_lt_of_le (length_of_first? h) (List.dropWhile_sublist _).length_le

end Token

end Logbook.Json
