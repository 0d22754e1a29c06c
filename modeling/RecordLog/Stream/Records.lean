import RecordLog.Record
import RecordLog.Stream.Pager

/-!
# Streams of records

A stream gives the records of a result one after the other. Every page has to hold a whole number
of records, so no record lies across two pages; a page may be empty. A page is fetched when a
record is asked for and the pages before it are read to their end.
-/

namespace RecordLog

/-- A result of records that is being read. -/
structure RecordStream where
  schema : Schema
  pager : Pager
  unread : Bytes
  state : StreamState

namespace RecordStream

/-- Refuses a page that does not hold a whole number of records. -/
def checkPage (s : Schema) (page : Bytes) : Except Fault Unit :=
  if s.Divides page then .ok ()
  else .error (.decoding (.pageSize page.length s.recordSize))

/-- The stream that starts with the first page of a result. -/
def start (log : Int64) (s : Schema) (first : Page) : Except Fault RecordStream :=
  (checkPage s first.data).map fun _ =>
    ⟨s, .start log first, first.data, .of first.data first.more⟩

def hasMore (r : RecordStream) : Bool := r.state.isOpen

/-- The stream behind a page that was fetched. A page that is refused ends the stream. -/
def turn (r : RecordStream) (page : Page) : Except Fault Unit × RecordStream :=
  let pager := r.pager.turn page
  match checkPage r.schema page.data with
  | .ok _ =>
    (.ok (), { r with pager, unread := page.data, state := .of page.data page.more })
  | .error fault => (.error fault, { r with pager, state := .failed })

/-- The bytes of the record in front, and the stream behind it. -/
def cut (r : RecordStream) : Bytes × RecordStream :=
  let rest := r.unread.drop r.schema.recordSize
  (r.unread.take r.schema.recordSize,
    { r with unread := rest, state := .of rest r.pager.more })

variable {σ : Type} [Service σ]

/-- The bytes of the next record, or nothing at the end. -/
def pull (r : RecordStream) (s : Session σ) :
    Except Fault (Option Bytes) × RecordStream × Session σ :=
  match r.state with
  | .done | .failed => (.ok none, r, s)
  | .hasData =>
    let (record, r) := r.cut
    (.ok (some record), r, s)
  | .pageRead =>
    match _h : r.pager.fetch s with
    | (.error fault, t) => (.error fault, { r with state := .failed }, t)
    | (.ok page, t) =>
      match r.turn page with
      | (.error fault, r) => (.error fault, r, t)
      | (.ok _, r) => pull r t
termination_by s.backlog
decreasing_by exact Pager.backlog_fetch_lt _h

/-- The next record, or nothing at the end; either as a view into the page or with bytes of its
own, which outlive the page. -/
def next (r : RecordStream) (isView : Bool) (s : Session σ) :
    Except Fault (Option Record) × RecordStream × Session σ :=
  match r.pull s with
  | (.error fault, r, s) => (.error fault, r, s)
  | (.ok none, r, s) => (.ok none, r, s)
  | (.ok (some data), r, s) =>
    ((r.schema.record data isView).map some |>.mapError .decoding, r, s)

end RecordStream

end RecordLog
