import RecordLog.Number.Binary.Basic

/-!
# Rounding to a binary format

Every conversion into a binary format is one rounding of an exact quotient of natural numbers:
to the nearest magnitude, and to the one with the even rank if two are equally near. The ranks
of a format make the carry into the next binade, and from the last binade into infinity, an
ordinary addition.
-/

namespace RecordLog.Number

-- Powers of natural numbers are the built-in ones, whatever else is imported.
attribute [local instance (high)] instPowNat

/-- The natural number nearest to a quotient; a half goes to the even neighbour. -/
def roundHalfEven (num den : Nat) : Nat :=
  let q := num / den
  let r := num % den
  if 2 * r < den then q
  else if 2 * r = den then q + q % 2
  else q + 1

namespace Format

/-- The rank nearest to the quotient, which counts the format's smallest magnitude. The bits
that exceed the precision tell the binade, and in it the steps are counted. -/
def nearest (f : Format) (num den : Nat) : Nat :=
  let excess := Nat.log2 (num / den) + 1 - f.precision
  min (roundHalfEven num (den * 2 ^ excess) + excess * f.binade) f.infinity

/-- The rank nearest to `m * 10 ^ e`. Beyond `scale + 1` decimal places the answer needs no
arithmetic: ten to that power is past every finite magnitude, and its inverse is less than half
of the smallest one. The bits of `m` are at least as many as its digits. -/
def nearestDecimal (f : Format) (m : Nat) (e : Int) : Nat :=
  if m = 0 then 0
  else if f.scale + 1 < e then f.infinity
  else if e + Nat.log2 m + 1 < -(f.scale + 1) then 0
  else f.nearest (m * 10 ^ e.toNat * 2 ^ f.scale) (10 ^ (-e).toNat)

end Format

namespace Binary

/-- The number of a format that is nearest to an integer; zero has no sign. -/
def ofInt (f : Format) (n : Int) : Binary f :=
  ofRank f (n < 0) (f.nearest (n.natAbs * 2 ^ f.scale) 1)

/-- The number of another format that is nearest to this one. A NaN stays one and keeps its
sign. -/
def convert {f : Format} (g : Format) (x : Binary f) : Binary g :=
  if x.isNaN then nan g x.negative
  else if x.isInfinite then ofRank g x.negative g.infinity
  else ofRank g x.negative (g.nearest (f.units x.rank * 2 ^ g.scale) (2 ^ f.scale))

end Binary

end RecordLog.Number
