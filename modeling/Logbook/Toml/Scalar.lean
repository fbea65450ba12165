import Logbook.Value
import Logbook.Toml.Text

/-!
# Numbers, dates and truth values in TOML

Integers have 64 bits and a sign; they are decimal, or hexadecimal, octal or binary behind `0x`,
`0o` and `0b`.  A float has a fraction or an exponent.  Underscores may stand between two digits.

JSON has no value for a date or a time, so one is read as a map of its text; it has none for
infinities and for what is no number either, and these are read as null.

* `integer?`, `float?`, `moment?`, `truth?`.
* `scalar?`: any of them, or a string.
-/

namespace Logbook.Toml

/-! ## Digits -/

/-- The digits behind the first, with single underscores between them. -/
def moreDigits (ok : Char → Bool) : List Char → List Char × List Char
  | '_' :: c :: rest =>
    if ok c then
      let (ds, rest) := moreDigits ok rest
      (c :: ds, rest)
    else
      ([], '_' :: c :: rest)
  | c :: rest =>
    if ok c then
      let (ds, rest) := moreDigits ok rest
      (c :: ds, rest)
    else
      ([], c :: rest)
  | [] => ([], [])

/-- One or more digits. -/
def digits? (ok : Char → Bool) : List Char → Reading (List Char)
  | c :: rest =>
    if ok c then
      let (ds, rest) := moreDigits ok rest
      some (c :: ds, rest)
    else
      none
  | [] => none

/-- The number that digits spell in a base. -/
def ofDigits (base : Nat) (ds : List Char) : Nat :=
  ds.foldl (fun n d => base * n + (hexDigit? d).getD 0) 0

/-- A sign, which may be left out. -/
def sign : List Char → Bool × List Char
  | '+' :: rest => (false, rest)
  | '-' :: rest => (true, rest)
  | rest => (false, rest)

/-- Decimal digits without a leading zero. -/
def decimal? : List Char → Reading (List Char)
  | '0' :: rest => some (['0'], rest)
  | cs => digits? Char.isDigit cs

/-! ## Numbers -/

/-- An integer that fits 64 bits with a sign. -/
def fitting (i : Int) (rest : List Char) : Reading Value :=
  if Double.wordFloor ≤ i ∧ i < -Double.wordFloor then some (.num (.int i), rest) else none

/-- The digits of an integer in a base. -/
def based? (base : Nat) (ok : Char → Bool) (cs : List Char) : Reading Value :=
  match digits? ok cs with
  | some (ds, rest) => fitting (ofDigits base ds) rest
  | none => none

/-- An integer. -/
def integer? : List Char → Reading Value
  | '0' :: 'x' :: rest => based? 16 (fun c => (hexDigit? c).isSome) rest
  | '0' :: 'o' :: rest => based? 8 (fun c => '0' ≤ c && c ≤ '7') rest
  | '0' :: 'b' :: rest => based? 2 (fun c => c == '0' || c == '1') rest
  | cs =>
    let (negative, cs) := sign cs
    match decimal? cs with
    | some (ds, rest) =>
      let n : Int := ofDigits 10 ds
      fitting (if negative then -n else n) rest
    | none => none

/-- The digits of a fraction, none when there is no point. -/
def fraction? : List Char → Reading (List Char)
  | '.' :: rest => digits? Char.isDigit rest
  | cs => some ([], cs)

/-- The exponent, if one is written. -/
def exponent? : List Char → Reading (Option Int)
  | c :: rest =>
    if c = 'e' ∨ c = 'E' then
      let (negative, rest) := sign rest
      (digits? Char.isDigit rest).map fun (ds, rest) =>
        let n : Int := ofDigits 10 ds
        (some (if negative then -n else n), rest)
    else
      some (none, c :: rest)
  | [] => some (none, [])

/-- A float in digits.  One that is too large is refused, and one that is too small infinite. -/
def digitFloat? (cs : List Char) : Option (Value × List Char) := do
  let (negative, cs) := sign cs
  let (whole, cs) ← decimal? cs
  let (fraction, cs) ← fraction? cs
  let (exponent, rest) ← exponent? cs
  if fraction.isEmpty ∧ exponent.isNone then none
  else
    let n := ofDigits 10 (whole ++ fraction)
    match Double.ofDecimal? negative ⟨n, exponent.getD 0 - fraction.length⟩ with
    | some x => some (.num (.float x), rest)
    | none => if negative then some (.null, rest) else none

/-- A float that is no number in digits. -/
def wordFloat? (cs : List Char) : Reading Value :=
  match (sign cs).2 with
  | 'i' :: 'n' :: 'f' :: rest => some (.null, rest)
  | 'n' :: 'a' :: 'n' :: rest => some (.null, rest)
  | _ => none

/-- A float. -/
def float? (cs : List Char) : Reading Value :=
  match digitFloat? cs with
  | some found => some found
  | none => wordFloat? cs

/-! ## Dates and times -/

/-- A number of so many digits within bounds. -/
def field? (digits low high : Nat) (cs : List Char) : Reading Nat :=
  let ds := cs.take digits
  let n := ofDigits 10 ds
  if ds.length = digits ∧ ds.all Char.isDigit ∧ low ≤ n ∧ n ≤ high then some (n, cs.drop digits)
  else none

/-- What follows a character. -/
def mark? (c : Char) : List Char → Option (List Char)
  | d :: rest => if d = c then some rest else none
  | [] => none

/-- The number of days of a month. -/
def daysOf (year month : Nat) : Nat :=
  if month = 2 then
    if year % 4 = 0 ∧ (year % 100 ≠ 0 ∨ year % 400 = 0) then 29 else 28
  else if month = 4 ∨ month = 6 ∨ month = 9 ∨ month = 11 then 30
  else 31

/-- What follows a date. -/
def afterDate? (cs : List Char) : Option (List Char) := do
  let (year, cs) ← field? 4 0 9999 cs
  let (month, cs) ← field? 2 1 12 (← mark? '-' cs)
  let (_, cs) ← field? 2 1 (daysOf year month) (← mark? '-' cs)
  return cs

/-- What follows a time; the second may be a leap second. -/
def afterTime? (cs : List Char) : Option (List Char) := do
  let (_, cs) ← field? 2 0 23 cs
  let (_, cs) ← field? 2 0 59 (← mark? ':' cs)
  let (_, cs) ← field? 2 0 60 (← mark? ':' cs)
  match cs with
  | '.' :: c :: rest => if c.isDigit then some (rest.dropWhile Char.isDigit) else some cs
  | _ => return cs

/-- What follows an offset from universal time. -/
def afterOffset? : List Char → Option (List Char)
  | 'Z' :: rest => some rest
  | 'z' :: rest => some rest
  | c :: rest =>
    if c = '+' ∨ c = '-' then do
      let (_, cs) ← field? 2 0 23 rest
      let (_, cs) ← field? 2 0 59 (← mark? ':' cs)
      return cs
    else
      none
  | [] => none

/-- What follows a time of day with the mark that sets it off from a date. -/
def afterTimeOfDay? : List Char → Option (List Char)
  | c :: rest =>
    if c = 'T' ∨ c = 't' ∨ c = ' ' then
      (afterTime? rest).map fun rest => (afterOffset? rest).getD rest
    else
      none
  | [] => none

/-- A date, a time, or both. -/
def moment? (cs : List Char) : Reading Value :=
  let after := match afterDate? cs with
    | some rest => some ((afterTimeOfDay? rest).getD rest)
    | none => afterTime? cs
  after.map fun rest =>
    (.map [("moment", .str (String.ofList (cs.take (cs.length - rest.length))))], rest)

/-! ## Truth values -/

/-- A truth value. -/
def truth? : List Char → Reading Value
  | 't' :: 'r' :: 'u' :: 'e' :: rest => some (.bool true, rest)
  | 'f' :: 'a' :: 'l' :: 's' :: 'e' :: rest => some (.bool false, rest)
  | _ => none

/-- A value that is neither a list nor a table. -/
def scalarValue? (cs : List Char) : Reading Value :=
  match string? cs with
  | some (s, rest) => some (.str s, rest)
  | none => (((moment? cs).or (float? cs)).or (integer? cs)).or (truth? cs)

end Logbook.Toml
