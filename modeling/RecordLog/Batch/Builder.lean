import RecordLog.Batch.Basic
import RecordLog.Schema.Packing

/-!
# Building batches

Records are collected by the stretch of time that their timestamps lie in: each record goes to
the end of the block of its stretch, and a stretch that is new opens a block behind the others.
So the order of arrival is kept within every block.
-/

namespace RecordLog

/-- Records collected for one batch. -/
structure BatchBuilder where
  schema : Schema
  blocks : List Block
  count : UInt64

namespace BatchBuilder

def empty (s : Schema) : BatchBuilder := ⟨s, [], 0⟩

/-- Puts a record at the end of its block. -/
def insert (key : UInt64) (record : Bytes) : List Block → List Block
  | [] => [⟨key, record, 1⟩]
  | b :: rest =>
    if b.key = key then ⟨b.key, b.data ++ record, b.count + 1⟩ :: rest
    else b :: insert key record rest

def addRecord (b : BatchBuilder) (record : Bytes) : Except ArgumentFault BatchBuilder :=
  if record.length < timestampSize then .error (.shortOfTimestamp record.length)
  else if record.length ≠ b.schema.recordSize then
    .error (.recordSize b.schema.recordSize record.length)
  else
    .ok { b with
      blocks := insert (blockOf (timestampOf record)) record b.blocks
      count := b.count + 1 }

def add (b : BatchBuilder) (now : UInt64) (values : List Value) : Except Fault BatchBuilder :=
  match b.schema.pack now values with
  | .error fault => .error fault
  | .ok record => (b.addRecord record).mapError .argument

def isEmpty (b : BatchBuilder) : Bool := b.count = 0

def clear (b : BatchBuilder) : BatchBuilder := empty b.schema

/-- The batch of all records, and a collection that starts anew. -/
def take (b : BatchBuilder) : Batch × BatchBuilder := (⟨b.count, b.blocks⟩, b.clear)

end BatchBuilder

end RecordLog
