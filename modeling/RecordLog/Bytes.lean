/-!
# Byte strings

Packed data is a list of bytes. This module holds the two views of it that the rest of the
library builds on: a fixed number of bytes read as one unsigned word, least significant byte
first, and a buffer cut into pieces of equal length. Its statements say that writing a word
and reading it back are inverse to each other, in both directions, and that the pieces of a
buffer put together again are the buffer.
-/

namespace RecordLog

-- Powers of natural numbers are the built-in ones, whatever else is imported.
attribute [local instance (high)] instPowNat

/-- Packed data, as the list of its bytes. -/
abbrev Bytes := List UInt8

namespace Bytes

/-- The `width` low bytes of `n`, least significant byte first. -/
def ofWord : Nat → Nat → Bytes
  | 0, _ => []
  | width + 1, n => UInt8.ofNat n :: ofWord width (n / 256)

/-- The unsigned number that the bytes hold, least significant byte first. -/
def toWord : Bytes → Nat
  | [] => 0
  | b :: rest => b.toNat + 256 * toWord rest

@[simp] theorem length_ofWord (width n : Nat) : (ofWord width n).length = width := by
  induction width generalizing n with
  | zero => rfl
  | succ width ih => simp [ofWord, ih]

theorem toWord_ofWord (width n : Nat) : toWord (ofWord width n) = n % 256 ^ width := by
  induction width generalizing n with
  | zero => simp [ofWord, toWord, Nat.mod_one]
  | succ width ih =>
    have hlow : (UInt8.ofNat n).toNat = n % 256 := by simp
    rw [ofWord, toWord, ih, hlow, Nat.pow_succ, Nat.mul_comm (256 ^ width) 256, Nat.mod_mul]

theorem toWord_lt (data : Bytes) : toWord data < 256 ^ data.length := by
  induction data with
  | nil => simp [toWord]
  | cons b rest ih =>
    have hb := b.toNat_lt
    simp only [toWord, List.length_cons, Nat.pow_succ]
    omega

theorem ofWord_toWord (data : Bytes) : ofWord data.length (toWord data) = data := by
  induction data with
  | nil => rfl
  | cons b rest ih =>
    have hb := b.toNat_lt
    have hdiv : (b.toNat + 256 * toWord rest) / 256 = toWord rest := by omega
    have hlow : UInt8.ofNat (b.toNat + 256 * toWord rest) = b := by
      apply UInt8.toNat_inj.mp
      simp only [UInt8.toNat_ofNat']
      omega
    simp [ofWord, toWord, hdiv, ih, hlow]

/-- The buffer cut off at a size, or filled up to it with zeros. -/
def resize (size : Nat) (buffer : Bytes) : Bytes :=
  buffer.take size ++ List.replicate (size - buffer.length) 0

def pieces (size : Nat) : Nat → Bytes → List Bytes
  | 0, _ => []
  | count + 1, data => data.take size :: pieces size count (data.drop size)

@[simp] theorem length_pieces (size count : Nat) (data : Bytes) :
    (pieces size count data).length = count := by
  induction count generalizing data with
  | zero => rfl
  | succ count ih => simp [pieces, ih]

/-- Pieces are cut one behind the other, so nothing is lost between them. -/
theorem flatten_pieces (size count : Nat) (data : Bytes) :
    (pieces size count data).flatten = data.take (count * size) := by
  induction count generalizing data with
  | zero => simp [pieces]
  | succ count ih =>
    simp only [pieces, List.flatten_cons, ih]
    rw [Nat.succ_mul, Nat.add_comm, List.take_add]

end Bytes

end RecordLog
