import RecordLog.Client.Logs

/-!
# Reading records

Records are read by their offset in the log, one or several at a time. What the server returns
has to be whole records; they are given the offsets that they stand at.
-/

namespace RecordLog

/-- The records of pieces of the log that stand one behind the other from an offset on. -/
def recordsFrom (s : Schema) : UInt64 → List Bytes → Except Fault (List Record)
  | _, [] => .ok []
  | offset, data :: rest =>
    match s.own data with
    | .error cause => .error (.decoding cause)
    | .ok record =>
      (record.readAt offset :: ·) <$> recordsFrom s (offset + UInt64.ofNat s.recordSize) rest

namespace Client

variable {σ : Type} [Service σ]

def readBytes (h : Handle) (offset count : UInt64) : Action σ Bytes := do
  ensureConnected
  let start ← lift (wireOffset offset)
  request (.read h.id start count)

def readPacked (h : Handle) (offset : UInt64) : Action σ Bytes := do
  let data ← readBytes h offset 1
  if data.length ≠ h.schema.recordSize then
    throw (.decoding (.readOneSize offset data.length h.schema.recordSize))
  return data

def read (h : Handle) (offset : UInt64) : Action σ Record := do
  let data ← readPacked h offset
  let record ← lift ((h.schema.own data).mapError .decoding)
  return record.readAt offset

def readMany (h : Handle) (offset count : UInt64) : Action σ (List Record) := do
  let data ← readBytes h offset count
  if h.schema.Divides data then lift (recordsFrom h.schema offset (h.schema.split data))
  else throw (.decoding (.readSize data.length h.schema.recordSize))

def readTexts (h : Handle) (offset : UInt64) : Action σ (List String) := do
  let record ← read h offset
  lift (record.texts.mapError .decoding)

def readManyTexts (h : Handle) (offset count : UInt64) : Action σ (List (List String)) := do
  let records ← readMany h offset count
  lift ((records.mapM Record.texts).mapError .decoding)

def count (h : Handle) : Action σ UInt64 := do
  let n ← request (.count h.id)
  if n < 0 then throw (.server (.negativeCount n)) else return UInt64.ofNat n.toInt.toNat

end Client

end RecordLog
