/-!
# Binary floating-point numbers

A format of the interchange kind is fixed by its precision and by the width of its exponent.
The magnitudes of a format, from zero over the finite ones to infinity and the NaNs, are
numbered in rising order: the number of a magnitude, its *rank*, is exactly the word that
encodes it without the sign. Every finite magnitude is a whole multiple of the smallest one
that is not zero, so all arithmetic on values is done on natural numbers, in that unit.
-/

namespace RecordLog.Number

-- Powers of natural numbers are the built-in ones, whatever else is imported.
attribute [local instance (high)] instPowNat

/-- A binary format: the number of significant bits, the leading one included, and the width
of the exponent. -/
structure Format where
  precision : Nat
  exponentBits : Nat
  two_le_precision : 2 ≤ precision
  two_le_exponentBits : 2 ≤ exponentBits
  deriving DecidableEq

namespace Format

def single : Format := ⟨24, 8, by decide, by decide⟩

def double : Format := ⟨53, 11, by decide, by decide⟩

/-- The number of ranks between two powers of two that follow each other. -/
def binade (f : Format) : Nat := 2 ^ (f.precision - 1)

/-- The number of ranks, those of the NaNs included. -/
def ranks (f : Format) : Nat := 2 ^ f.exponentBits * f.binade

/-- The rank of infinity; smaller ranks are finite, larger ones are NaNs. -/
def infinity (f : Format) : Nat := f.ranks - f.binade

/-- The smallest magnitude that is not zero is 2 to the power of minus this number. -/
def scale (f : Format) : Nat := 2 ^ (f.exponentBits - 1) + f.precision - 3

/-- The bytes of an encoded number. -/
def size (f : Format) : Nat := (f.exponentBits + f.precision) / 8

/-- The value of a finite rank, in units of the smallest magnitude. Below two binades a rank
is its own value; from there on each binade has steps twice as large as the one before. -/
def units (f : Format) (rank : Nat) : Nat :=
  if rank < f.binade then rank
  else (f.binade + rank % f.binade) * 2 ^ (rank / f.binade - 1)

theorem binade_pos (f : Format) : 0 < f.binade := Nat.two_pow_pos _

theorem binade_le_ranks (f : Format) : f.binade ≤ f.ranks :=
  Nat.le_mul_of_pos_left _ (Nat.two_pow_pos _)

theorem infinity_lt_ranks (f : Format) : f.infinity < f.ranks := by
  have := f.binade_pos
  have := f.binade_le_ranks
  unfold infinity
  omega

end Format

/-- A number of a binary format: a sign and the rank of a magnitude. -/
structure Binary (f : Format) where
  negative : Bool
  rank : Nat
  rank_lt : rank < f.ranks
  deriving DecidableEq

abbrev Single := Binary .single

abbrev Double := Binary .double

namespace Binary

variable {f : Format}

def isZero (x : Binary f) : Bool := x.rank = 0

def isFinite (x : Binary f) : Bool := x.rank < f.infinity

def isInfinite (x : Binary f) : Bool := x.rank = f.infinity

def isNaN (x : Binary f) : Bool := f.infinity < x.rank

/-- Whether the number is above zero; a NaN is not. -/
def isPositive (x : Binary f) : Bool := !x.negative && !x.isZero && !x.isNaN

/-- Equality of numbers: the two zeros are equal, and a NaN is not equal to itself. -/
def equal (x y : Binary f) : Bool :=
  !x.isNaN && !y.isNaN && (x = y || (x.isZero && y.isZero))

/-- The magnitude of a rank, cut off at infinity, with a sign. -/
def ofRank (f : Format) (negative : Bool) (rank : Nat) : Binary f where
  negative := negative
  rank := min rank f.infinity
  rank_lt := Nat.lt_of_le_of_lt (Nat.min_le_right _ _) f.infinity_lt_ranks

/-- The rank of the NaN that carries no message: the first bit of its fraction alone is set. -/
def quietRank (f : Format) : Nat := f.infinity + f.binade / 2

theorem quietRank_lt (f : Format) : quietRank f < f.ranks := by
  have := f.binade_pos
  have := f.binade_le_ranks
  unfold quietRank Format.infinity
  omega

def nan (f : Format) (negative : Bool) : Binary f := ⟨negative, quietRank f, quietRank_lt f⟩

/-- The word that encodes a number: its rank, and above it the sign. -/
def toWord (x : Binary f) : Nat := (if x.negative then f.ranks else 0) + x.rank

/-- The number that a word encodes; what does not fit into the format's width is ignored. -/
def ofWord (f : Format) (word : Nat) : Binary f where
  negative := word / f.ranks % 2 = 1
  rank := word % f.ranks
  rank_lt := Nat.mod_lt _ (Nat.lt_of_lt_of_le f.binade_pos f.binade_le_ranks)

theorem ofWord_toWord (x : Binary f) : ofWord f x.toWord = x := by
  have hpos : 0 < f.ranks := Nat.lt_of_lt_of_le f.binade_pos f.binade_le_ranks
  have hlt := x.rank_lt
  obtain ⟨negative, rank, _⟩ := x
  cases negative with
  | false => simp [ofWord, toWord, Nat.mod_eq_of_lt hlt, Nat.div_eq_of_lt hlt]
  | true =>
    simp [ofWord, toWord, Nat.mod_eq_of_lt hlt, Nat.add_div_left _ hpos,
      Nat.div_eq_of_lt hlt]

end Binary

end RecordLog.Number
