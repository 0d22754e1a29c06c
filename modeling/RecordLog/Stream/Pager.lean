import RecordLog.Service

/-!
# Going through pages

The first page of a result comes with the answer to a query; the others are fetched one at a
time, and only when they are needed. The pager holds what the next fetch needs to know. A stream
over the pages is in one of four states, which follow from whether anything is unread and
whether there are further pages, until a failure ends the stream for good.
-/

namespace RecordLog

/-- Where a stream stands. -/
inductive StreamState where
  /-- There are unread bytes. -/
  | hasData
  /-- All bytes are read, and there are further pages. -/
  | pageRead
  /-- All bytes are read, and there are no further pages. -/
  | done
  /-- A page could not be fetched or read. -/
  | failed
  deriving DecidableEq

namespace StreamState

/-- The state of a stream that has not failed. -/
def of (unread : Bytes) (more : Bool) : StreamState :=
  if unread ≠ [] then .hasData else if more then .pageRead else .done

/-- Whether anything may be left to read. -/
def isOpen : StreamState → Bool
  | .hasData | .pageRead => true
  | .done | .failed => false

end StreamState

/-- What is known about the pages of a result. -/
structure Pager where
  log : Int64
  /-- Names the pages that are not fetched yet. -/
  descriptor : Descriptor
  /-- Whether there are such pages. -/
  more : Bool
  /-- How many pages were fetched. -/
  fetched : Nat
  deriving DecidableEq

namespace Pager

def start (log : Int64) (first : Page) : Pager := ⟨log, first.descriptor, first.more, 0⟩

def turn (p : Pager) (page : Page) : Pager :=
  { p with descriptor := page.descriptor, more := page.more, fetched := p.fetched + 1 }

variable {σ : Type} [Service σ]

def fetch (p : Pager) (s : Session σ) : Except Fault Page × Session σ :=
  s.call (.nextPage p.log p.descriptor)

theorem backlog_fetch_lt {p : Pager} {s t : Session σ} {page : Page}
    (h : p.fetch s = (.ok page, t)) : t.backlog < s.backlog := by
  have hpage : (s.call (.nextPage p.log p.descriptor)).1 = .ok page := congrArg Prod.fst h
  have hnext : (s.call (.nextPage p.log p.descriptor)).2 = t := congrArg Prod.snd h
  exact hnext ▸ Session.backlog_call_lt hpage

end Pager

end RecordLog
