/-!
# Decimals

A decimal is a natural number of digits times a power of ten.  It is what a written number says
before it is rounded to a double, and what is chosen to write a double down.

* `Decimal.strip`: the same decimal without trailing zeros.
* `Decimal.chars`: the layout.  The point is written out when the leading digit counts
  `10^-5` to `10^15`, and then at least one digit follows it; otherwise the exponent is written
  with its sign.
-/

namespace Logbook

/-- The decimal `digits · 10^exponent`. -/
structure Decimal where
  digits : Nat
  exponent : Int
deriving DecidableEq, Repr

namespace Decimal

/-! ## Size -/

/-- The digits in base ten, the leading one first. -/
def numeral (d : Decimal) : List Char := Nat.toDigits 10 d.digits

/-- The power of ten that the leading digit counts. -/
def leading (d : Decimal) : Int := d.exponent + d.numeral.length - 1

/-! ## Trailing zeros -/

/-- Moves at most `fuel` trailing zeros into the exponent. -/
def stripUpTo : Nat → Decimal → Decimal
  | 0, d => d
  | fuel + 1, d =>
    if d.digits % 10 = 0 then stripUpTo fuel ⟨d.digits / 10, d.exponent + 1⟩ else d

/-- The same decimal without trailing zeros; zero itself is left alone. -/
def strip (d : Decimal) : Decimal :=
  if d.digits = 0 then d else stripUpTo d.numeral.length d

/-! ## Layout -/

/-- The digits with a point, for a leading digit that counts `10^-5` to `10^15`. -/
def positional (d : Decimal) : List Char :=
  if 0 ≤ d.exponent then
    d.numeral ++ List.replicate d.exponent.toNat '0' ++ ['.', '0']
  else if 0 ≤ d.leading then
    d.numeral.take (d.leading + 1).toNat ++ '.' :: d.numeral.drop (d.leading + 1).toNat
  else
    '0' :: '.' :: (List.replicate (-d.leading - 1).toNat '0' ++ d.numeral)

/-- The digits with a point after the first, then the exponent with its sign. -/
def scientific (d : Decimal) : List Char :=
  d.numeral.take 1
    ++ (if d.numeral.length ≤ 1 then [] else '.' :: d.numeral.drop 1)
    ++ 'e' :: (if d.leading < 0 then '-' else '+') :: Nat.toDigits 10 d.leading.natAbs

/-- The text of a decimal. -/
def chars (d : Decimal) : List Char :=
  if -5 ≤ d.leading ∧ d.leading ≤ 15 then d.positional else d.scientific

end Decimal

end Logbook
