import RecordLog.Fault
import RecordLog.Text.Letters

/-!
# Columns

A record is a row of columns, packed one behind the other without gaps. A column knows its place
in the row and the offset of its bytes, so a field can be cut out of a record without looking
at the columns before it. Every column holds values: the type of nothing is excluded by a proof
that the column carries.
-/

namespace RecordLog

-- Sums of natural numbers begin with the built-in zero, whatever else is imported.
attribute [local instance (high)] Zero.ofOfNat0

/-- The smallest and the largest value that a column is expected to hold. They guide the server
in building an index and are not checked when a record is packed. -/
structure Bounds where
  min : Value
  max : Value
  deriving DecidableEq

structure Column where
  index : Nat
  offset : Nat
  type : DataType
  name : String
  bounds : Option Bounds
  type_ne_none : type ≠ .none
  deriving DecidableEq

def timestampName : String := "TIMESTAMP"

def timestampSize : Nat := DataType.timestamp.size

/-- The timestamp at the front of a packed record. -/
def timestampOf (record : Bytes) : UInt64 :=
  UInt64.ofNat (Bytes.toWord (record.take timestampSize))

namespace Column

def timestamp : Column := ⟨0, 0, .timestamp, timestampName, none, by decide⟩

def finish (c : Column) : Nat := c.offset + c.type.size

/-- The column's bytes in a buffer that holds them. -/
def slice (c : Column) (data : Bytes) : Bytes := (data.drop c.offset).take c.type.size

/-- The column's bytes in any buffer; one that ends before the column does is refused. -/
def slice? (c : Column) (data : Bytes) : Except DecodingFault Bytes :=
  if c.finish ≤ data.length then .ok (c.slice data)
  else .error (.shortOfColumn data.length c.name)

end Column

/-- Equality of bounds as values: a NaN makes them differ from themselves. -/
def Bounds.equal (a b : Bounds) : Bool := a.min.equal b.min && a.max.equal b.max

/-- Equality of columns in everything they declare, with bounds compared as values. -/
def Column.equal (a b : Column) : Bool :=
  a.index = b.index && a.offset = b.offset && a.type = b.type && a.name = b.name &&
    match a.bounds, b.bounds with
    | none, none => true
    | some a, some b => a.equal b
    | _, _ => false

def recordSize (columns : List Column) : Nat := (columns.map (·.type.size)).sum

/-- Whether columns are numbered from an index on and lie one behind the other from an offset
on. -/
def Placed : Nat → Nat → List Column → Prop
  | _, _, [] => True
  | index, offset, c :: rest =>
    c.index = index ∧ c.offset = offset ∧ Placed (index + 1) (offset + c.type.size) rest

end RecordLog
