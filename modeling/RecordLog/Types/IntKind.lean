import RecordLog.Bytes

/-!
# Kinds of integers

A column of integers has one of eight kinds, which differ in width and in whether numbers below
zero are admitted. A number of a kind carries the proof that it lies in the kind's range, so
packing it loses nothing: unsigned kinds are packed as they are, signed ones in two's complement.
-/

namespace RecordLog

-- Powers of natural numbers are the built-in ones, whatever else is imported.
attribute [local instance (high)] instPowNat

/-- The kinds of integers that a column can hold. -/
inductive IntKind where
  | char | uchar | short | ushort | int | uint | long | ulong
  deriving DecidableEq

namespace IntKind

def width : IntKind → Nat
  | .char | .uchar => 1
  | .short | .ushort => 2
  | .int | .uint => 4
  | .long | .ulong => 8

def isSigned : IntKind → Bool
  | .char | .short | .int | .long => true
  | .uchar | .ushort | .uint | .ulong => false

def words (k : IntKind) : Nat := 256 ^ k.width

def low (k : IntKind) : Int := if k.isSigned then -(k.words / 2 : Nat) else 0

def high (k : IntKind) : Int := if k.isSigned then (k.words / 2 : Nat) - 1 else k.words - 1

def Holds (k : IntKind) (n : Int) : Prop := k.low ≤ n ∧ n ≤ k.high

instance (k : IntKind) (n : Int) : Decidable (k.Holds n) :=
  inferInstanceAs (Decidable (_ ∧ _))

/-- A number in the range of a kind. -/
structure Number (k : IntKind) where
  val : Int
  holds : k.Holds val
  deriving DecidableEq

/-- The number of a kind, if it lies in the kind's range. -/
def number? (k : IntKind) (n : Int) : Option k.Number :=
  if h : k.Holds n then some ⟨n, h⟩ else none

/-- The word that packs a number: a number below zero is moved up by the number of words. -/
def Number.toWord {k : IntKind} (n : k.Number) : Nat := (n.val % k.words).toNat

theorem holds_unsigned {k : IntKind} (h : k.isSigned = false) {word : Nat}
    (hw : word < k.words) : k.Holds word := by
  simp only [Holds, low, high, h, Bool.false_eq_true, if_false]
  omega

theorem holds_signed {k : IntKind} (h : k.isSigned = true) {word : Nat} (hw : word < k.words) :
    k.Holds (if word < k.words / 2 then (word : Int) else word - k.words) := by
  have heven : k.words / 2 * 2 = k.words := by cases k <;> decide
  simp only [Holds, low, high, h, if_true]
  split <;> omega

theorem holds_zero (k : IntKind) : k.Holds 0 := by cases k <;> decide

theorem words_pos (k : IntKind) : 0 < k.words := by cases k <;> decide

/-- The number that a word packs; what does not fit into the kind's width is ignored. -/
def Number.ofWord (k : IntKind) (word : Nat) : k.Number :=
  have hw : word % k.words < k.words := Nat.mod_lt _ k.words_pos
  if h : k.isSigned then ⟨_, holds_signed h hw⟩
  else ⟨(word % k.words : Nat), holds_unsigned (Bool.eq_false_iff.mpr h) hw⟩

def Number.toBytes {k : IntKind} (n : k.Number) : Bytes := Bytes.ofWord k.width n.toWord

def Number.ofBytes (k : IntKind) (data : Bytes) : k.Number := ofWord k (Bytes.toWord data)

end IntKind

end RecordLog
