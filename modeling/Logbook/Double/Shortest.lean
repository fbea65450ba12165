import Logbook.Double

/-!
# The shortest decimal of a double

A double is written with the fewest digits that read back to it.  The search walks the grids of
powers of ten from coarse to fine.  On each it tries the two neighbours of the value, the nearer
one first and the even one on a tie, and it keeps the first that reads back.

* `Double.readsBack`: a decimal is rounded to this double.
* `Double.shortest`: the decimal chosen; when no grid serves, the exact value.
* `Double.chars`: the text of a double.
-/

namespace Logbook.Double

/-- Holds when the decimal is rounded to `x`, the sign of `x` being given. -/
def readsBack (x : Double) (d : Decimal) : Bool := ofDecimal? x.negative d == some x

/-- The two neighbours of `num / den` among the naturals, the nearer first; on a tie, the even. -/
def neighbours (num den : Nat) : List Nat :=
  let q := num / den
  match Ord.compare (2 * (num % den)) den with
  | .lt => [q, q + 1]
  | .gt => [q + 1, q]
  | .eq => if q % 2 = 0 then [q, q + 1] else [q + 1, q]

/-- The decimals next to `x` on the grid of `10^grid`, without trailing zeros. -/
def candidates (x : Double) (grid : Int) : List Decimal :=
  (neighbours (x.magnitude * Nat.pow 10 (-grid).toNat) (unit * Nat.pow 10 grid.toNat)).map
    fun digits => Decimal.strip ⟨digits, grid⟩

/-- The first decimal that reads back, on so many grids from `10^grid` down. -/
def search (x : Double) (count : Nat) (grid : Int) : Option Decimal :=
  (List.range count).findSome? fun (i : Nat) => (candidates x (grid - i)).find? x.readsBack

/-- The coarsest grid worth a try: the power of ten of the leading digit, or the one above. -/
def coarsest (x : Double) : Int := ((x.magnitude.log2 : Int) - places) * 30103 / 100000 + 1

/-- The value written out in full: a unit is `5^1074 · 10^-1074`. -/
def exact (x : Double) : Decimal := ⟨x.magnitude * Nat.pow 5 places, -places⟩

/-- The decimal that a double is written as. -/
def shortest (x : Double) : Decimal :=
  if x.mantissa = 0 then ⟨0, 0⟩ else (x.search 20 x.coarsest).getD x.exact

/-- The text of a double. -/
def chars (x : Double) : List Char :=
  if x.negative then '-' :: x.shortest.chars else x.shortest.chars

end Logbook.Double
