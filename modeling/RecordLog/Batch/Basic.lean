import RecordLog.Schema.Column

/-!
# Batches

A batch carries many records in one append. Its blocks group the records by time, each with the
number of records that it claims to hold. The claims travel as words of 64 bits; they are
checked as natural numbers, and one whose consequences do not fit into a word is refused.
-/

namespace RecordLog

-- Sums of natural numbers begin with the built-in zero, whatever else is imported.
attribute [local instance (high)] Zero.ofOfNat0

/-- Records of one stretch of time, packed one behind the other. -/
structure Block where
  key : UInt64
  data : Bytes
  /-- The number of records that the block is said to hold. -/
  count : UInt64
  deriving DecidableEq

/-- Records to be appended together. -/
structure Batch where
  count : UInt64
  blocks : List Block
  deriving DecidableEq

/-- The length of the stretch of time of one block: a second, in microseconds. -/
def blockSpan : UInt64 := 1000000

def blockOf (timestamp : UInt64) : UInt64 := timestamp / blockSpan

namespace Batch

def isEmpty (b : Batch) : Bool := b.count = 0

def size (b : Batch) : Nat := (b.blocks.map (·.data.length)).sum

def wordLimit : Nat := UInt64.size

/-- Adds the counts of blocks to a total, and checks each block's bytes against its count. -/
def total (recordSize : Nat) : UInt64 → List Block → Except ArgumentFault UInt64
  | held, [] => .ok held
  | held, b :: rest =>
    let expected := b.count.toNat * recordSize
    if wordLimit ≤ expected then .error (.blockOverflow b.key b.count recordSize)
    else if b.data.length ≠ expected then
      .error (.blockSize b.key b.data.length b.count recordSize)
    else if wordLimit ≤ held.toNat + b.count.toNat then .error .countOverflow
    else total recordSize (held + b.count) rest

/-- Checks that every block holds the records that it claims, and the batch those of its
blocks. -/
def validate (b : Batch) (recordSize : Nat) : Except ArgumentFault Unit :=
  match total recordSize 0 b.blocks with
  | .error cause => .error cause
  | .ok held => if held = b.count then .ok () else .error (.countMismatch b.count held)

end Batch

end RecordLog
