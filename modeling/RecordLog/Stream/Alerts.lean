import RecordLog.Stream.Pager

/-!
# Streams of alerts

Alerts are lines of text. The pages of a result of alerts are cut anywhere, so a line may lie
across several of them; what a page leaves unread is kept in front of the next one. Empty lines
are passed over, and behind the last page what is left is a line even without its end. A page is
fetched when a line is asked for and no end of line is left.
-/

namespace RecordLog

def lineFeed : UInt8 := 0x0A

/-- The first line of a buffer that holds the end of one, without that end, and what is behind
it. -/
def cutLine? : Bytes → Option (Bytes × Bytes)
  | [] => none
  | b :: rest =>
    if b = lineFeed then some ([], rest)
    else (cutLine? rest).map fun (line, rest) => (b :: line, rest)

theorem cutLine?_length_lt {data line rest : Bytes} (h : cutLine? data = some (line, rest)) :
    rest.length < data.length := by
  induction data generalizing line rest with
  | nil => simp [cutLine?] at h
  | cons b tail ih =>
    rw [cutLine?] at h
    split at h
    · simp only [Option.some.injEq, Prod.mk.injEq] at h
      rw [← h.2]
      exact Nat.lt_succ_self _
    · obtain ⟨⟨line', rest'⟩, hcut, heq⟩ := Option.map_eq_some_iff.mp h
      simp only [Prod.mk.injEq] at heq
      have := ih hcut
      rw [← heq.2, List.length_cons]
      omega

/-- A result of alerts that is being read. -/
structure AlertStream where
  pager : Pager
  unread : Bytes
  state : StreamState

namespace AlertStream

/-- The stream that starts with the first page of a result. -/
def start (log : Int64) (first : Page) : AlertStream :=
  ⟨.start log first, first.data, .of first.data first.more⟩

def hasMore (a : AlertStream) : Bool := a.state.isOpen

def turn (a : AlertStream) (page : Page) : AlertStream :=
  let unread := a.unread ++ page.data
  ⟨a.pager.turn page, unread, .of unread page.more⟩

def leave (a : AlertStream) (rest : Bytes) : AlertStream :=
  { a with unread := rest, state := .of rest a.pager.more }

variable {σ : Type} [Service σ]

/-- The bytes of the next line that is not empty, or nothing at the end. -/
def pull (a : AlertStream) (s : Session σ) :
    Except Fault (Option Bytes) × AlertStream × Session σ :=
  match a.state with
  | .done | .failed => (.ok none, a, s)
  | .hasData | .pageRead =>
    match _h : cutLine? a.unread with
    | some (line, rest) =>
      if line = [] then pull (a.leave rest) s else (.ok (some line), a.leave rest, s)
    | none =>
      if a.pager.more then
        match _h : a.pager.fetch s with
        | (.error fault, t) => (.error fault, { a with state := .failed }, t)
        | (.ok page, t) => pull (a.turn page) t
      else (.ok (some a.unread), a.leave [], s)
termination_by (s.backlog, a.unread.length)
decreasing_by
  · exact Prod.Lex.right _ (cutLine?_length_lt _h)
  · exact Prod.Lex.left _ _ (Pager.backlog_fetch_lt _h)

/-- The next alert, or nothing at the end. A line that is not text ends the stream. -/
def next (a : AlertStream) (s : Session σ) :
    Except Fault (Option String) × AlertStream × Session σ :=
  match a.pull s with
  | (.error fault, a, s) => (.error fault, a, s)
  | (.ok none, a, s) => (.ok none, a, s)
  | (.ok (some line), a, s) =>
    match Text.Utf8.decode line with
    | .ok text => (.ok (some text), a, s)
    | .error flaw => (.error (.decoding (.alert flaw)), { a with state := .failed }, s)

end AlertStream

end RecordLog
