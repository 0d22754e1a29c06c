import RecordLog.Client.Basic

/-!
# Logs and what is attached to them

Logs are created, loaded and removed, and indexes, filters, aggregates and triggers are attached
to them. The server carries all of this out; what is checked before it is asked is that an index
has a positive bucket size and that an offset fits into the exchange.
-/

namespace RecordLog

/-- An offset as it is exchanged, which leaves one bit to the sign. -/
def wireOffset (offset : UInt64) : Except Fault Int64 :=
  if offset.toNat < UInt64.size / 2 then .ok (Int64.ofNat offset.toNat)
  else .error (.argument (.offset offset))

namespace Client

variable {σ : Type} [Service σ]

def createIn (mode : StorageMode) (name : String) (schema : Schema) : Action σ Handle := do
  let id ← request (.create name schema.toWire mode)
  return ⟨id, name, schema⟩

def create (name : String) (schema : Schema) : Action σ Handle := do
  createIn (← get).config.mode name schema

def load (name : String) : Action σ Handle := do
  let id ← request (.load name)
  let info ← request (.info name)
  return ⟨id, name, ← lift (Schema.ofWire info.columns)⟩

def select (name : String) : Action σ Handle := do
  let info ← request (.info name)
  return ⟨info.id, name, ← lift (Schema.ofWire info.columns)⟩

def remove (h : Handle) : Action σ Unit := request (.remove h.id)

def addIndexOf (bucketSize : Number.Double) (h : Handle) (field : String) : Action σ Unit :=
  if bucketSize.isPositive then request (.addIndex h.id field bucketSize)
  else throw (.argument (.bucketSize bucketSize))

def addIndex (h : Handle) (field : String) : Action σ Unit := do
  addIndexOf (← get).config.bucketSize h field

def removeIndex (h : Handle) (field : String) : Action σ Unit :=
  request (.removeIndex h.id field)

def addFilter (h : Handle) (name expression : String) : Action σ Unit :=
  request (.addFilter h.id name expression)

def removeFilter (h : Handle) (name : String) : Action σ Unit :=
  request (.removeFilter h.id name)

/-- Adds an aggregate over the records that pass a named filter. -/
def addAggregate (h : Handle) (name filter expression : String) : Action σ Unit :=
  request (.addAggregate h.id name filter expression)

def removeAggregate (h : Handle) (name : String) : Action σ Unit :=
  request (.removeAggregate h.id name)

def addTrigger (h : Handle) (name expression : String) : Action σ Unit :=
  request (.addTrigger h.id name expression)

def removeTrigger (h : Handle) (name : String) : Action σ Unit :=
  request (.removeTrigger h.id name)

/-- Archives a log up to an offset, or all of it, which is exchanged as an offset of -1. -/
def archive (h : Handle) (offset : Option UInt64) : Action σ Unit := do
  let offset ← match offset with
    | some offset => lift (wireOffset offset)
    | none => pure (-1)
  request (.archive h.id offset)

end Client

end RecordLog
