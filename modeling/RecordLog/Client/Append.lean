import RecordLog.Client.Basic
import RecordLog.Batch.Builder

/-!
# Appending records

A record or a batch is checked against the schema of its log before it is sent. The server
answers with the offset at which the first record now stands.
-/

namespace RecordLog

/-- An offset that the server returned. -/
def returnedOffset (offset : Int64) : Except Fault UInt64 :=
  if offset < 0 then .error (.server (.negativeOffset offset))
  else .ok (UInt64.ofNat offset.toInt.toNat)

namespace Client

variable {σ : Type} [Service σ]

def appendPacked (h : Handle) (record : Bytes) : Action σ UInt64 := do
  if record.length ≠ h.schema.recordSize then
    throw (.argument (.recordSize h.schema.recordSize record.length))
  let offset ← request (.append h.id record)
  lift (returnedOffset offset)

def append (h : Handle) (now : UInt64) (values : List Value) : Action σ UInt64 := do
  appendPacked h (← lift (h.schema.pack now values))

def appendTexts (h : Handle) (now : UInt64) (texts : List String) : Action σ UInt64 := do
  appendPacked h (← lift (h.schema.packTexts now texts))

def appendBatch (h : Handle) (batch : Batch) : Action σ UInt64 := do
  lift ((batch.validate h.schema.recordSize).mapError .argument)
  let offset ← request (.appendBatch h.id batch)
  lift (returnedOffset offset)

end Client

end RecordLog
