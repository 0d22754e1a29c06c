import RecordLog.Record
import RecordLog.Service

/-!
# Clients

A client owns a session with a service from connecting to disconnecting. Its operations are
actions: they take the client to a reply or a fault and, in both cases, to the client behind it,
so the requests that a failing operation made are not lost. Every operation that addresses the
service goes through `Client.request`, which refuses to make a request once the client is
disconnected.
-/

namespace RecordLog

/-- What a client is set up with. -/
structure Config where
  host : String := "localhost"
  port : UInt16 := 9090
  /-- The mode of storage of logs that are created without naming one. -/
  mode : StorageMode := .inMemory
  /-- The bucket size of indexes that are added without naming one. -/
  bucketSize : Number.Double := .ofInt .double 1
  deriving DecidableEq

/-- A log that a client works with. -/
structure Handle where
  id : Int64
  name : String
  schema : Schema
  deriving DecidableEq

/-- Equality of handles, with the bounds of columns compared as values. -/
def Handle.equal (a b : Handle) : Bool :=
  a.id = b.id && a.name = b.name && a.schema.equal b.schema

structure Client (σ : Type) where
  config : Config
  connected : Bool
  session : Session σ

/-- What a client does: it ends in a result or a fault, and in any case in a client. -/
abbrev Action (σ : Type) := ExceptT Fault (StateM (Client σ))

namespace Client

variable {σ : Type} [Service σ]

/-- Opens the connection and registers the client. If the client cannot be registered, the
connection is closed again, and the fault of the registration is reported. -/
def connect (config : Config) (s : Session σ) : Except (Fault × Session σ) (Client σ) :=
  match s.call (.connect config.host config.port) with
  | (.error fault, s) => .error (fault, s)
  | (.ok _, s) =>
    match s.call .register with
    | (.error fault, s) => .error (fault, (s.call .close).2)
    | (.ok _, s) => .ok ⟨config, true, s⟩

/-- Deregisters the client and closes the connection, once. That the client cannot be
deregistered does not keep the connection open. -/
def disconnect : Action σ Unit := fun c =>
  if c.connected then
    let (_, s) := c.session.call .deregister
    let (reply, s) := s.call .close
    (reply, { c with connected := false, session := s })
  else (.ok (), c)

/-- Gives the client up, and with it a connection that is still open. -/
def drop (c : Client σ) : Client σ := (disconnect.run c).2

/-- Makes a request, if the client is connected. -/
def request (r : Request) : Action σ r.Answer := fun c =>
  if c.connected then
    let (reply, session) := c.session.call r
    (reply, { c with session })
  else (.error .disconnected, c)

def ensureConnected : Action σ Unit := fun c =>
  if c.connected then (.ok (), c) else (.error .disconnected, c)

/-- Takes over a result that does not depend on the client. -/
def lift {α : Type} (result : Except Fault α) : Action σ α := fun c => (result, c)

/-- Takes a step of a stream that reads from the client's service. -/
def step {α τ : Type} (next : Session σ → Except Fault α × τ × Session σ) (c : Client σ) :
    Except Fault α × τ × Client σ :=
  let (reply, stream, session) := next c.session
  (reply, stream, { c with session })

end Client

end RecordLog
