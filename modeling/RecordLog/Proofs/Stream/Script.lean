import RecordLog.Stream.Alerts
import RecordLog.Stream.Records

/-!
# Pulls from prepared pages

What a stream gives depends on the answers to its requests for further pages. Here these answers
are prepared in advance, in any number and of any kind: a script is a list of replies, and the
fault that every request behind its end meets. A stream is asked for its items in two ways that
may be mixed at will, and a run is any finite number of such pulls.

Inside a pull a stream goes through rounds. One round makes at most one request, and all rounds
but the last one end without an answer; so what a pull does is told by what a round may do.
-/

namespace RecordLog

/-- Replies to the requests for further pages, prepared in advance. -/
structure Script where
  replies : List (Except Fault Page)
  /-- What a request meets when all replies are used up. -/
  exhausted : Fault

namespace Script

/-- Whatever page is asked for, the next reply answers. Nothing else is answered. -/
def answer : (r : Request) → Script → Except Fault r.Answer × Script
  | .nextPage .., s =>
    match s.replies with
    | [] => (.error s.exhausted, s)
    | reply :: rest => (reply, { s with replies := rest })
  | _, s => (.error s.exhausted, s)

theorem replies_lt {s : Script} {log : Int64} {d : Descriptor} {page : Page}
    (h : (s.answer (.nextPage log d)).1 = .ok page) :
    (s.answer (.nextPage log d)).2.replies.length < s.replies.length := by
  obtain ⟨replies, exhausted⟩ := s
  cases replies with
  | nil => simp [answer] at h
  | cons reply rest => simp [answer]

instance : Service Script where
  answer r s := s.answer r
  backlog s := s.replies.length
  backlog_lt _ _ _ _ := replies_lt

/-- A session with the script in which no request was made yet. -/
def opening (s : Script) : Session Script := ⟨s, []⟩

/-- The pages that the first replies bring. -/
def pages (s : Script) (requests : Nat) : List Page :=
  (s.replies.take requests).filterMap Except.toOption

/-- The page received last when a number of requests were answered, the first page of the result
being received without one. -/
def received (s : Script) (first : Page) (requests : Nat) : Page :=
  (s.pages requests).getLastD first

end Script

namespace StreamState

theorem of_ne_failed (unread : Bytes) (more : Bool) : StreamState.of unread more ≠ .failed := by
  cases unread <;> cases more <;> simp [StreamState.of]

theorem of_eq_hasData_iff {unread : Bytes} {more : Bool} :
    StreamState.of unread more = .hasData ↔ unread ≠ [] := by
  cases unread <;> cases more <;> simp [StreamState.of]

theorem of_eq_pageRead_iff {unread : Bytes} {more : Bool} :
    StreamState.of unread more = .pageRead ↔ unread = [] ∧ more = true := by
  cases unread <;> cases more <;> simp [StreamState.of]

theorem of_eq_done_iff {unread : Bytes} {more : Bool} :
    StreamState.of unread more = .done ↔ unread = [] ∧ more = false := by
  cases unread <;> cases more <;> simp [StreamState.of]

theorem isOpen_of_iff {unread : Bytes} {more : Bool} :
    (StreamState.of unread more).isOpen = true ↔ unread ≠ [] ∨ more = true := by
  cases unread <;> cases more <;> simp [StreamState.of, isOpen]

end StreamState

/-- What pages bring in all: their bytes, and the fault that kept the last page away. -/
structure Delivery where
  data : Bytes
  fault : Option Fault

/-- What the pages behind one page bring, which itself says whether there are more. A page may be
refused for its bytes. -/
def ahead (refusal : Bytes → Option Fault) (exhausted : Fault) :
    Bool → List (Except Fault Page) → Delivery
  | false, _ => ⟨[], none⟩
  | true, [] => ⟨[], some exhausted⟩
  | true, .error fault :: _ => ⟨[], some fault⟩
  | true, .ok page :: rest =>
    match refusal page.data with
    | some fault => ⟨[], some fault⟩
    | none =>
      let later := ahead refusal exhausted page.more rest
      ⟨page.data ++ later.data, later.fault⟩

/-- What all pages of a result bring. -/
def Script.deliver (s : Script) (refusal : Bytes → Option Fault) (first : Page) : Delivery :=
  let later := ahead refusal s.exhausted first.more s.replies
  ⟨first.data ++ later.data, later.fault⟩

namespace Pager

def request (p : Pager) : Request := .nextPage p.log p.descriptor

theorem fetch_eq (p : Pager) (s : Session Script) :
    p.fetch s =
      match s.state.replies with
      | [] => (.error s.state.exhausted, ⟨s.state, s.calls ++ [p.request]⟩)
      | reply :: rest =>
        (reply, ⟨{ s.state with replies := rest }, s.calls ++ [p.request]⟩) := by
  cases h : s.state.replies <;>
    simp [fetch, Session.call, Service.answer, Script.answer, h, request]

theorem of_fetch_ok {p : Pager} {s t : Session Script} {page : Page}
    (h : p.fetch s = (.ok page, t)) :
    s.state.replies = .ok page :: t.state.replies ∧ t.state.exhausted = s.state.exhausted ∧
      t.calls = s.calls ++ [p.request] := by
  rw [fetch_eq] at h
  cases hreplies : s.state.replies with
  | nil => simp [hreplies] at h
  | cons reply rest =>
    simp only [hreplies, Prod.mk.injEq] at h
    obtain ⟨rfl, rfl⟩ := h
    exact ⟨rfl, rfl, rfl⟩

theorem of_fetch_error {p : Pager} {s t : Session Script} {fault : Fault}
    (h : p.fetch s = (.error fault, t)) :
    (s.state.replies = [] ∧ fault = s.state.exhausted ∧ t.state.replies = [] ∨
      s.state.replies = .error fault :: t.state.replies) ∧
      t.calls = s.calls ++ [p.request] := by
  rw [fetch_eq] at h
  cases hreplies : s.state.replies with
  | nil =>
    simp only [hreplies, Prod.mk.injEq, Except.error.injEq] at h
    obtain ⟨rfl, rfl⟩ := h
    exact ⟨.inl ⟨rfl, rfl, hreplies⟩, rfl⟩
  | cons reply rest =>
    simp only [hreplies, Prod.mk.injEq] at h
    obtain ⟨rfl, rfl⟩ := h
    exact ⟨.inr rfl, rfl⟩

/-- A fetch that fails leaves nothing to be expected from further pages. -/
theorem ahead_of_fetch_error {p : Pager} {s t : Session Script} {fault : Fault}
    (refusal : Bytes → Option Fault) (h : p.fetch s = (.error fault, t)) :
    ahead refusal s.state.exhausted true s.state.replies = ⟨[], some fault⟩ := by
  rcases (of_fetch_error h).1 with ⟨hnil, rfl, -⟩ | hcons
  · rw [hnil, ahead]
  · rw [hcons, ahead]

theorem ahead_of_fetch_ok {p : Pager} {s t : Session Script} {page : Page}
    (refusal : Bytes → Option Fault) (h : p.fetch s = (.ok page, t)) :
    ahead refusal s.state.exhausted true s.state.replies =
      match refusal page.data with
      | some fault => ⟨[], some fault⟩
      | none =>
        let later := ahead refusal t.state.exhausted page.more t.state.replies
        ⟨page.data ++ later.data, later.fault⟩ := by
  obtain ⟨hreplies, hexhausted, -⟩ := of_fetch_ok h
  rw [hreplies, hexhausted, ahead]

end Pager

/-- The ways to ask a stream for its next item: by its own operation, or as an iterator. -/
inductive Pull where
  | next
  | iterate
  deriving DecidableEq

/-- The answer to a pull. An operation gives a result, which may be that there is nothing; an
iterator gives nothing, or a result. -/
inductive Reply (α : Type) where
  | result (r : Except Fault (Option α))
  | item (i : Option (Except Fault α))

namespace Reply

variable {α : Type}

/-- The answer in the form that a way of asking has for it. -/
def shaped : Pull → Option (Except Fault α) → Reply α
  | .next, none => .result (.ok none)
  | .next, some (.ok found) => .result (.ok (some found))
  | .next, some (.error fault) => .result (.error fault)
  | .iterate, i => .item i

def isFault : Reply α → Bool
  | .result (.error _) | .item (some (.error _)) => true
  | .result (.ok _) | .item (some (.ok _)) | .item none => false

end Reply

/-- A result that may be nothing, turned inside out as an iterator gives it. -/
def inverted {α : Type} : Except Fault (Option α) → Option (Except Fault α)
  | .error fault => some (.error fault)
  | .ok none => none
  | .ok (some found) => some (.ok found)

/-- The answers to pulls made one after the other, and what the pulls leave behind. -/
def pulls {σ τ α : Type} (ask : Pull → τ → Session σ → Reply α × τ × Session σ) :
    List Pull → τ → Session σ → List (Reply α) × τ × Session σ
  | [], t, s => ([], t, s)
  | p :: rest, t, s =>
    let (reply, t, s) := ask p t s
    let (replies, t, s) := pulls ask rest t s
    (reply :: replies, t, s)

/-- If every pull answers with the item in front of a list that tells what a stream has still to
give, a run of pulls answers with that list, and behind its end with nothing. -/
theorem pulls_answer {σ τ α β : Type} {ask : Pull → τ → Session σ → Reply β × τ × Session σ}
    {remaining : τ → Session σ → List α} {P : τ → Session σ → Prop}
    (reply : Pull → Option α → Reply β)
    (hask : ∀ p t s, P t s → ∃ t₁ s₁,
      ask p t s = (reply p (remaining t s).head?, t₁, s₁) ∧
        remaining t₁ s₁ = (remaining t s).tail ∧ P t₁ s₁)
    (asked : List Pull) (t : τ) (s : Session σ) (h : P t s) :
    (pulls ask asked t s).1 = (asked.mapIdx fun i p => reply p (remaining t s)[i]?) ∧
      P (pulls ask asked t s).2.1 (pulls ask asked t s).2.2 := by
  induction asked generalizing t s with
  | nil => exact ⟨rfl, h⟩
  | cons p rest ih =>
    obtain ⟨t₁, s₁, heq, htail, h₁⟩ := hask p t s h
    obtain ⟨hanswers, hlast⟩ := ih t₁ s₁ h₁
    simp only [pulls, heq, hanswers, htail, List.mapIdx_cons, List.head?_eq_getElem?,
      List.getElem?_tail]
    exact ⟨trivial, hlast⟩

/-- What one round of a pull may do to a stream and a session; it may also end the pull with an
answer. -/
abbrev Step (σ τ α : Type) := τ → Session σ → Option α → τ → Session σ → Prop

/-- Where rounds lead to from a stream and a session, as long as none of them ends the pull. -/
inductive Rounds {σ τ α : Type} (round : Step σ τ α) (t : τ) (s : Session σ) :
    τ → Session σ → Prop where
  | entry : Rounds round t s t s
  | again {t₁ t₂ : τ} {s₁ s₂ : Session σ} :
      Rounds round t s t₁ s₁ → round t₁ s₁ none t₂ s₂ → Rounds round t s t₂ s₂

/-- A pull that goes through rounds and ends with an answer. -/
def EndsWith {σ τ α : Type} (round : Step σ τ α) (t : τ) (s : Session σ)
    (out : α × τ × Session σ) : Prop :=
  ∃ t₁ s₁, Rounds round t s t₁ s₁ ∧ round t₁ s₁ (some out.1) out.2.1 out.2.2

namespace Rounds

variable {σ τ α : Type} {round : Step σ τ α} {t t₁ t₂ : τ} {s s₁ s₂ : Session σ}

/-- What every round without an answer keeps holds wherever rounds lead. -/
theorem invariant {P : τ → Session σ → Prop}
    (hkeep : ∀ t s t₁ s₁, P t s → round t s none t₁ s₁ → P t₁ s₁)
    (h : Rounds round t s t₁ s₁) (hstart : P t s) : P t₁ s₁ := by
  induction h with
  | entry => exact hstart
  | again _ hround ih => exact hkeep _ _ _ _ ih hround

theorem after (hround : round t s none t₁ s₁) (h : Rounds round t₁ s₁ t₂ s₂) :
    Rounds round t s t₂ s₂ := by
  induction h with
  | entry => exact .again .entry hround
  | again _ hnext ih => exact .again ih hnext

end Rounds

theorem EndsWith.after {σ τ α : Type} {round : Step σ τ α} {t t₁ : τ} {s s₁ : Session σ}
    {out : α × τ × Session σ} (hround : round t s none t₁ s₁)
    (h : EndsWith round t₁ s₁ out) : EndsWith round t s out := by
  obtain ⟨t₂, s₂, hrounds, hend⟩ := h
  exact ⟨t₂, s₂, hrounds.after hround, hend⟩

end RecordLog
