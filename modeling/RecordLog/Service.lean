import RecordLog.Batch.Basic
import RecordLog.Wire

/-!
# The service at the other end

All that a client wants from the server is a request, and each request has its own type of
answer. A service is any state together with a way to answer requests from it: a connection to a
real server, a store in memory, or a list of prepared replies. The results of a query come in
pages, and a service holds a finite backlog of them: every further page that it hands out makes
the backlog smaller. This is what makes reading to the end of a result come to an end.

A session is a service together with the requests that were made of it so far.
-/

namespace RecordLog

/-- Names a result of which the server holds further pages. -/
structure Descriptor where
  id : Int64
  iteratorType : Int32
  dataType : Int32
  handler : Int32
  deriving DecidableEq

/-- One page of a result. -/
structure Page where
  /-- Names the pages behind this one. -/
  descriptor : Descriptor
  data : Bytes
  /-- Whether there are pages behind this one. -/
  more : Bool
  deriving DecidableEq

/-- What the server knows about a log. -/
structure LogInfo where
  id : Int64
  columns : List WireColumn
  deriving DecidableEq

/-- What can be asked of a service. A log is named by the number that the server gave it. -/
inductive Request where
  | connect (host : String) (port : UInt16)
  | close
  | register
  | deregister
  | create (name : String) (columns : List WireColumn) (mode : StorageMode)
  | load (name : String)
  | info (name : String)
  | remove (log : Int64)
  | addIndex (log : Int64) (field : String) (bucketSize : Number.Double)
  | removeIndex (log : Int64) (field : String)
  | addFilter (log : Int64) (name expression : String)
  | removeFilter (log : Int64) (name : String)
  | addAggregate (log : Int64) (name filter expression : String)
  | removeAggregate (log : Int64) (name : String)
  | addTrigger (log : Int64) (name expression : String)
  | removeTrigger (log : Int64) (name : String)
  | archive (log : Int64) (offset : Int64)
  | append (log : Int64) (record : Bytes)
  | appendBatch (log : Int64) (batch : Batch)
  | read (log : Int64) (offset : Int64) (count : UInt64)
  | aggregate (log : Int64) (name : String) (start finish : Int64)
  | aggregateOf (log : Int64) (expression filter : String)
  | select (log : Int64) (expression : String)
  | filtered (log : Int64) (name : String) (start finish : Int64)
  | refined (log : Int64) (name expression : String) (start finish : Int64)
  | alerts (log : Int64) (start finish : Int64)
  | alertsOf (log : Int64) (trigger : String) (start finish : Int64)
  | count (log : Int64)
  | nextPage (log : Int64) (descriptor : Descriptor)
  deriving DecidableEq

/-- What a request is answered with if it succeeds. -/
@[reducible] def Request.Answer : Request → Type
  | .connect .. | .close | .register | .deregister | .remove .. | .addIndex ..
  | .removeIndex .. | .addFilter .. | .removeFilter .. | .addAggregate ..
  | .removeAggregate .. | .addTrigger .. | .removeTrigger .. | .archive .. => Unit
  | .create .. | .load .. | .append .. | .appendBatch .. | .count .. => Int64
  | .info .. => LogInfo
  | .read .. => Bytes
  | .aggregate .. | .aggregateOf .. => String
  | .select .. | .filtered .. | .refined .. | .alerts .. | .alertsOf .. | .nextPage .. => Page

/-- A type of states from which requests are answered. -/
class Service (σ : Type) where
  /-- The answer to a request, and the state behind it. -/
  answer : (r : Request) → σ → Except Fault r.Answer × σ
  /-- How many further pages the service has left at most. -/
  backlog : σ → Nat
  /-- A further page leaves fewer of them. This shuts out no run that comes to an end: a run sees
  just the answers of its service, so it is also a run against the list of these answers, for
  which the number of replies that are left is a backlog. Only a pull that never returns is shut
  out. -/
  backlog_lt : ∀ (log : Int64) (d : Descriptor) (s : σ) (page : Page),
    (answer (.nextPage log d) s).1 = .ok page →
      backlog (answer (.nextPage log d) s).2 < backlog s

/-- A service, and the requests made of it so far. -/
structure Session (σ : Type) where
  state : σ
  calls : List Request

namespace Session

variable {σ : Type} [Service σ]

def call (s : Session σ) (r : Request) : Except Fault r.Answer × Session σ :=
  let (reply, state) := Service.answer r s.state
  (reply, ⟨state, s.calls ++ [r]⟩)

/-- How many further pages the service has left at most. -/
def backlog (s : Session σ) : Nat := Service.backlog s.state

theorem backlog_call_lt {s : Session σ} {log : Int64} {d : Descriptor} {page : Page}
    (h : (s.call (.nextPage log d)).1 = .ok page) :
    (s.call (.nextPage log d)).2.backlog < s.backlog :=
  Service.backlog_lt log d s.state page h

end Session

end RecordLog
