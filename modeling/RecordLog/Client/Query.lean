import RecordLog.Client.Basic
import RecordLog.Stream.Records
import RecordLog.Stream.Alerts

/-!
# Queries

A query is answered with a text, or with the first page of a stream. A query over a window of
time is refused if the window ends before it begins; both of its ends belong to it.
-/

namespace RecordLog

/-- Refuses a window of time that ends before it begins. -/
def checkWindow (start finish : Int64) : Except Fault Unit :=
  if finish < start then .error (.argument (.window start finish)) else .ok ()

namespace Client

variable {σ : Type} [Service σ]

/-- Evaluates a named aggregate over a window of time. -/
def aggregate (h : Handle) (name : String) (start finish : Int64) : Action σ String := do
  lift (checkWindow start finish)
  request (.aggregate h.id name start finish)

/-- Evaluates an aggregate over the records that pass a filter, both given as expressions. -/
def aggregateOf (h : Handle) (expression filter : String) : Action σ String :=
  request (.aggregateOf h.id expression filter)

def filter (h : Handle) (expression : String) : Action σ RecordStream := do
  let first ← request (.select h.id expression)
  lift (RecordStream.start h.id h.schema first)

/-- The records in a window of time that pass a named filter. -/
def filtered (h : Handle) (name : String) (start finish : Int64) :
    Action σ RecordStream := do
  lift (checkWindow start finish)
  let first ← request (.filtered h.id name start finish)
  lift (RecordStream.start h.id h.schema first)

/-- The records in a window of time that pass a named filter and an expression; a blank
expression lets every record pass. -/
def refined (h : Handle) (name expression : String) (start finish : Int64) :
    Action σ RecordStream :=
  if Text.trim expression = "" then filtered h name start finish
  else do
    lift (checkWindow start finish)
    let first ← request (.refined h.id name expression start finish)
    lift (RecordStream.start h.id h.schema first)

def alerts (h : Handle) (start finish : Int64) : Action σ AlertStream := do
  lift (checkWindow start finish)
  let first ← request (.alerts h.id start finish)
  return AlertStream.start h.id first

/-- The alerts that one trigger raised in a window of time. -/
def alertsOf (h : Handle) (trigger : String) (start finish : Int64) :
    Action σ AlertStream := do
  lift (checkWindow start finish)
  let first ← request (.alertsOf h.id trigger start finish)
  return AlertStream.start h.id first

end Client

end RecordLog
