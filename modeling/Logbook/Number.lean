import Logbook.Double.Shortest

/-!
# Numbers

A number is an integer or a double, and the two compare by exact value: `1` equals `1.0`, and an
integer beyond `2^53` is never rounded to meet a double.

* `Number.exactInteger?`: the integer a number stands for, if it is one of the machine's 64-bit
  integers, signed or not.
* `Number.compare`: the order of the values.
* `Number.ofNumeral?`: what a written number stands for.
* `Number.chars`: how it is written.
-/

namespace Logbook

/-- A number as it is written: an integer, or a double when it has a fraction or an exponent or
does not fit the integers. -/
inductive Number where
  | int (value : Int)
  | float (value : Double)
deriving DecidableEq, Repr

namespace Double

/-! ## Exact integers -/

/-- The least integer of 64 bits, `-2^63`. -/
def wordFloor : Int := -9223372036854775808

/-- The integers of 64 bits, signed or not, lie below this, `2^64`. -/
def wordCeil : Int := 18446744073709551616

/-- The integer a double stands for, if it has no fraction and fits 64 bits. -/
def exactInteger? (x : Double) : Option Int :=
  if x.isIntegral ∧ wordFloor * unit ≤ x.units ∧ x.units < wordCeil * unit then
    some x.truncate
  else
    none

/-- Orders a double that is no exact integer against an integer: the ends of the range first,
then the whole parts, and a fraction breaks their tie. -/
def compareToInt (x : Double) (i : Int) : Ordering :=
  if wordCeil * unit ≤ x.units then .gt
  else if x.units < wordFloor * unit then .lt
  else
    match Ord.compare x.truncate i with
    | .eq => if x.truncate * unit < x.units then .gt else .lt
    | o => o

end Double

namespace Number

/-- Holds of the numbers that can be written: integers have 64 bits. -/
def InRange : Number → Prop
  | .int i => Double.wordFloor ≤ i ∧ i < Double.wordCeil
  | .float _ => True

instance : DecidablePred InRange := fun
  | .int i => inferInstanceAs (Decidable (Double.wordFloor ≤ i ∧ i < Double.wordCeil))
  | .float _ => .isTrue trivial

/-- The integer a number stands for, if any. -/
def exactInteger? : Number → Option Int
  | .int i => some i
  | .float x => x.exactInteger?

/-! ## Order -/

/-- A number as an exact integer, or as a double that is none. -/
def exactOrDouble : Number → Int ⊕ Double
  | .int i => .inl i
  | .float x =>
    match x.exactInteger? with
    | some i => .inl i
    | none => .inr x

/-- Numbers are ordered by exact value. -/
def compare (a b : Number) : Ordering :=
  match a.exactOrDouble, b.exactOrDouble with
  | .inl i, .inl j => Ord.compare i j
  | .inl i, .inr y => (y.compareToInt i).swap
  | .inr x, .inl j => x.compareToInt j
  | .inr x, .inr y => x.compare y

/-! ## Text -/

/-- What a written number says: sign, digits, and whether it has a fraction or an exponent. -/
structure Numeral where
  negative : Bool
  decimal : Decimal
  plain : Bool
deriving DecidableEq, Repr

/-- A numeral without fraction and exponent is an integer if it fits, minus zero excepted; any
other is the nearest double, and none if there is none. -/
def ofNumeral? (n : Numeral) : Option Number :=
  let digits : Int := n.decimal.digits
  if n.plain ∧ n.negative = false ∧ digits < Double.wordCeil then some (.int digits)
  else if n.plain ∧ n.negative = true ∧ digits ≠ 0 ∧ Double.wordFloor ≤ -digits then
    some (.int (-digits))
  else (Double.ofDecimal? n.negative n.decimal).map .float

/-- The text of an integer. -/
def intChars (i : Int) : List Char :=
  if i < 0 then '-' :: Nat.toDigits 10 i.natAbs else Nat.toDigits 10 i.natAbs

/-- The text of a number. -/
def chars : Number → List Char
  | .int i => intChars i
  | .float x => x.chars

end Number

end Logbook
