import RecordLog.Schema.Basic
import RecordLog.Types.Written

/-!
# Records

A record is bytes of exactly the size that its schema asks for. Its fields are slices of these
bytes, one for each column, and are decoded when they are asked for; nothing is kept but the
bytes. A record is either a view into a larger buffer or holds bytes of its own, and it may know
the offset in the log that it was read from.
-/

namespace RecordLog

/-- One field of a record: the bytes of a column. -/
structure Field where
  index : Nat
  type : DataType
  data : Bytes
  deriving DecidableEq

def Field.value (f : Field) : Except DecodingFault Value := f.type.unpack f.data

def Field.text (f : Field) : Except DecodingFault String := f.type.writeValue f.data

/-- The bytes of one record, to be read by a schema. -/
structure Record where
  schema : Schema
  data : Bytes
  size_eq : data.length = schema.recordSize
  /-- Whether the bytes are part of a buffer that the record shares. -/
  isView : Bool
  offset : Option UInt64
  deriving DecidableEq

namespace Record

def toOwned (r : Record) : Record := { r with isView := false }

/-- The record with the offset that it was read from. -/
def readAt (r : Record) (offset : UInt64) : Record := { r with offset := some offset }

/-- The version of the log in which the record first appears: the offset behind it. -/
def version (r : Record) : Option UInt64 :=
  r.offset.map (· + UInt64.ofNat r.data.length)

def field (r : Record) (c : Column) : Field := ⟨c.index, c.type, c.slice r.data⟩

def fields (r : Record) : List Field := r.schema.columns.map r.field

def at? (r : Record) (index : Nat) : Option Field := r.schema.columns[index]?.map r.field

def get? (r : Record) (name : String) : Option Field := (r.schema.column? name).map r.field

def size (r : Record) : Nat := r.schema.columns.length

def isEmpty (r : Record) : Bool := r.size = 0

def values (r : Record) : Except DecodingFault (List Value) := r.fields.mapM Field.value

def texts (r : Record) : Except DecodingFault (List String) := r.fields.mapM Field.text

def timestamp (r : Record) : UInt64 := timestampOf r.data

end Record

namespace Schema

/-- The record in a buffer, which has to be of the right size. -/
def record (s : Schema) (data : Bytes) (isView : Bool) : Except DecodingFault Record :=
  if h : data.length = s.recordSize then .ok ⟨s, data, h, isView, none⟩
  else .error (.recordSize data.length s.recordSize)

def view (s : Schema) (data : Bytes) : Except DecodingFault Record := s.record data true

def own (s : Schema) (data : Bytes) : Except DecodingFault Record := s.record data false

/-- A buffer cut into pieces of the size of a record; what is left over at its end is dropped. -/
def split (s : Schema) (data : Bytes) : List Bytes :=
  Bytes.pieces s.recordSize (data.length / s.recordSize) data

/-- Whether a buffer holds a whole number of records. -/
def Divides (s : Schema) (data : Bytes) : Prop := data.length % s.recordSize = 0

instance (s : Schema) (data : Bytes) : Decidable (s.Divides data) :=
  inferInstanceAs (Decidable (_ = _))

/-- All records in a buffer, as views into it. -/
def viewAll (s : Schema) (data : Bytes) : Except DecodingFault (List Record) :=
  if s.Divides data then (s.split data).mapM s.view
  else .error (.bufferSize data.length s.recordSize)

end Schema

end RecordLog
