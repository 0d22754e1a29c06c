import RecordLog.Number.Binary.Rounding
import RecordLog.Number.Decimal

/-!
# Writing binary numbers as text

A finite number is written with the fewest significant digits that read back as the same
number; of several such the nearest is taken, and of two equally near ones the upper. The text
is always positional: there is no exponent, and no point behind a whole number. A negative zero
keeps its sign, and a NaN shows none.

The search looks at one decimal grid after the other. On each of them only the two neighbours
of the value matter, because any other point of the grid is further away on the same side.
-/

namespace RecordLog.Number

-- Powers of natural numbers are the built-in ones, whatever else is imported.
attribute [local instance (high)] instPowNat

/-- The number of digits up to which shorter texts are looked for; it suffices for the format
of 64 bits. -/
def digitLimit : Nat := 17

namespace Format

/-- The least exponent `p` for which the magnitude is below `10 ^ p`. -/
def decimalPlace (f : Format) (rank : Nat) : Int :=
  digitCount (f.units rank * 5 ^ f.scale) - f.scale

/-- The neighbour with `count` digits that reads back as the magnitude, as digits and the
exponent of the last one. -/
def shorter? (f : Format) (rank count : Nat) : Option (Nat × Int) :=
  let e := f.decimalPlace rank - count
  let num := f.units rank * 10 ^ (-e).toNat
  let den := 2 ^ f.scale * 10 ^ e.toNat
  let below := num / den
  let above := below + 1
  let nearerBelow := 2 * (num % den) < den
  if f.nearestDecimal below e = rank ∧ (nearerBelow ∨ f.nearestDecimal above e ≠ rank) then
    some (below, e)
  else if f.nearestDecimal above e = rank then some (above, e)
  else none

/-- The digits of a finite magnitude and the exponent of the last one. A number that no short
text stands for is given exactly. -/
def shortest (f : Format) (rank : Nat) : Nat × Int :=
  ((List.range digitLimit).findSome? fun n => f.shorter? rank (n + 1)).getD
    (f.units rank * 5 ^ f.scale, -f.scale)

end Format

/-- The last `count` digits of a number, leading zeros included. -/
def lastDigits : Nat → Nat → List Char
  | 0, _ => []
  | count + 1, n => lastDigits count (n / 10) ++ [digitChar (n % 10)]

/-- The text of `m * 10 ^ e`, without an exponent and without zeros at the end of a fraction. -/
def positional (m : Nat) (e : Int) : List Char :=
  if 0 ≤ e then digits (m * 10 ^ e.toNat)
  else
    let places := (-e).toNat
    let fraction := ((lastDigits places m).reverse.dropWhile (· = '0')).reverse
    digits (m / 10 ^ places) ++ if fraction = [] then [] else '.' :: fraction

def Binary.text {f : Format} (x : Binary f) : List Char :=
  if x.isNaN then "NaN".toList
  else
    let magnitude :=
      if x.isInfinite then "inf".toList
      else
        let (m, e) := f.shortest x.rank
        positional m e
    if x.negative then '-' :: magnitude else magnitude

end RecordLog.Number
