import RecordLog.Proofs.Stream.Alerts
import RecordLog.Proofs.Stream.Records

/-!
# How streams fetch their pages

Both kinds of streams fetch pages in the same way: lazily, one at a time, each by the descriptor
that came with the page before it, and not at all once the stream has ended. What this asks of a
kind is listed in `Lawful`, in terms of single rounds and single pulls; that every run of pulls
keeps to the protocol follows from the list alone, and both kinds meet it.
-/

namespace RecordLog

/-- A kind of stream, as far as the fetching of pages goes. -/
structure Kind (τ α : Type) where
  pager : τ → Pager
  unread : τ → Bytes
  state : τ → StreamState
  hasMore : τ → Bool
  /-- Whether unread bytes hold a whole item. -/
  HoldsItem : Bytes → Prop
  round : Step Script τ (Except Fault (Option Bytes))
  ask : Pull → τ → Session Script → Reply α × τ × Session Script

/-- What is promised of a stream and its session behind a run of pulls that gave certain
replies. -/
structure Protocol {τ α : Type} (k : Kind τ α) (log : Int64) (first : Page) (script : Script)
    (replies : List (Reply α)) (t : τ) (s : Session Script) : Prop where
  /-- Every request names the log, and by its descriptor the page received just before. -/
  calls : s.calls = (List.range s.calls.length).map fun j =>
    .nextPage log (script.received first j).descriptor
  /-- A further pull goes through rounds and makes the requests that they make. -/
  rounds : ∀ p, ∃ t₁ s₁ answer t₂, Rounds k.round t s t₁ s₁ ∧
    k.round t₁ s₁ (some answer) t₂ (k.ask p t s).2.2
  /-- A round makes at most one request, and only if the last page said that there are more and
  what is unread holds no whole item. -/
  lazy : ∀ t₁ s₁ answer t₂ s₂, Rounds k.round t s t₁ s₁ → k.round t₁ s₁ answer t₂ s₂ →
    s₂.calls = s₁.calls ∨ s₂.calls.length = s₁.calls.length + 1 ∧
      (script.received first s₁.calls.length).more = true ∧ ¬ k.HoldsItem (k.unread t₁)
  /-- The pages are counted that were received behind the first one. -/
  fetched : (k.pager t).fetched = (script.pages s.calls.length).length
  /-- The state follows from the replies, the unread bytes and the last page. -/
  state : k.state t =
    if replies.any Reply.isFault then .failed
    else if k.unread t ≠ [] then .hasData
    else if (script.received first s.calls.length).more then .pageRead
    else .done
  hasMore : k.hasMore t = true ↔ k.state t = .hasData ∨ k.state t = .pageRead
  /-- A stream that has ended gives nothing more, stays as it is and makes no request. -/
  ended : k.state t = .done ∨ k.state t = .failed → ∀ later,
    pulls k.ask later t s = (later.map fun p => .shaped p none, t, s)

/-! ## Requests and the script -/

/-- What a request for the next page does to a pager and a session. -/
inductive Fetched (p : Pager) (s : Session Script) : Pager → Session Script → Prop where
  | error {fault : Fault} {t : Session Script} (h : p.fetch s = (.error fault, t)) :
      Fetched p s p t
  | ok {page : Page} {t : Session Script} (h : p.fetch s = (.ok page, t)) :
      Fetched p s (p.turn page) t

/-- A pager and a session after requests that were answered by the script. -/
structure Tracks (log : Int64) (first : Page) (script : Script) (p : Pager)
    (s : Session Script) : Prop where
  replies : s.state.replies = script.replies.drop s.calls.length
  calls : s.calls = (List.range s.calls.length).map fun j =>
    .nextPage log (script.received first j).descriptor
  pager : p = ⟨log, (script.received first s.calls.length).descriptor,
    (script.received first s.calls.length).more, (script.pages s.calls.length).length⟩

namespace Script

variable {script : Script} {n : Nat} {rest : List (Except Fault Page)}

theorem take_succ_of_drop {reply : Except Fault Page} (h : script.replies.drop n = reply :: rest) :
    script.replies.take (n + 1) = script.replies.take n ++ [reply] ∧
      script.replies.drop (n + 1) = rest := by
  have hget : script.replies[n]? = some reply := by
    rw [← List.head?_drop, h, List.head?_cons]
  constructor
  · rw [List.take_add_one, hget, Option.toList_some]
  · rw [← List.tail_drop, h, List.tail_cons]

theorem pages_ok {page : Page} (h : script.replies.drop n = .ok page :: rest) :
    script.pages (n + 1) = script.pages n ++ [page] := by
  simp [pages, (take_succ_of_drop h).1, Except.toOption]

theorem pages_error {fault : Fault} (h : script.replies.drop n = .error fault :: rest) :
    script.pages (n + 1) = script.pages n := by
  simp [pages, (take_succ_of_drop h).1, Except.toOption]

theorem pages_nil (h : script.replies.drop n = []) : script.pages (n + 1) = script.pages n := by
  have hlength : script.replies.length ≤ n := List.drop_eq_nil_iff.mp h
  rw [pages, pages, List.take_of_length_le hlength, List.take_of_length_le (by omega)]

end Script

namespace Tracks

variable {log : Int64} {first : Page} {script : Script} {p p₁ : Pager} {s s₁ : Session Script}

theorem start (log : Int64) (first : Page) (script : Script) :
    Tracks log first script (.start log first) script.opening :=
  ⟨rfl, rfl, rfl⟩

theorem calls_append (h : Tracks log first script p s)
    (hcalls : s₁.calls = s.calls ++ [p.request]) :
    s₁.calls.length = s.calls.length + 1 ∧
      s₁.calls = (List.range s₁.calls.length).map fun j =>
        .nextPage log (script.received first j).descriptor := by
  have hlength : s₁.calls.length = s.calls.length + 1 := by simp [hcalls]
  refine ⟨hlength, ?_⟩
  have hrequest : p.request = .nextPage log (script.received first s.calls.length).descriptor := by
    rw [h.pager, Pager.request]
  rw [hlength, List.range_succ, List.map_append, ← h.calls, hcalls, hrequest]
  rfl

/-- A request keeps pager and session in step with the script. -/
theorem fetched (h : Tracks log first script p s) (hfetched : Fetched p s p₁ s₁) :
    Tracks log first script p₁ s₁ ∧ s₁.calls.length = s.calls.length + 1 := by
  cases hfetched with
  | @ok page _ hfetch =>
    obtain ⟨hreplies, -, hcalls⟩ := Pager.of_fetch_ok hfetch
    obtain ⟨hlength, hrequests⟩ := h.calls_append hcalls
    have hdrop := h.replies.symm.trans hreplies
    refine ⟨⟨?_, hrequests, ?_⟩, hlength⟩
    · rw [hlength, (Script.take_succ_of_drop hdrop).2]
    · rw [hlength, Script.received, Script.pages_ok hdrop, Pager.turn, h.pager]
      simp
  | error hfetch =>
    obtain ⟨hreply, hcalls⟩ := Pager.of_fetch_error hfetch
    obtain ⟨hlength, hrequests⟩ := h.calls_append hcalls
    have hsame : s₁.state.replies = script.replies.drop (s.calls.length + 1) ∧
        script.pages (s.calls.length + 1) = script.pages s.calls.length := by
      rcases hreply with ⟨hreplies, -, hreplies₁⟩ | hreplies
      · have hdrop := h.replies.symm.trans hreplies
        rw [hreplies₁, ← List.tail_drop, hdrop]
        exact ⟨rfl, Script.pages_nil hdrop⟩
      · have hdrop := h.replies.symm.trans hreplies
        exact ⟨(Script.take_succ_of_drop hdrop).2.symm, Script.pages_error hdrop⟩
    refine ⟨⟨by rw [hlength, hsame.1], hrequests, ?_⟩, hlength⟩
    rw [hlength, Script.received, hsame.2]
    exact h.pager

end Tracks

/-! ## The protocol from single rounds and pulls -/

/-- What the protocol asks of a kind of stream, for streams of which `P` holds. -/
structure Lawful {τ α : Type} (k : Kind τ α) (P : τ → Prop) : Prop where
  /-- A round makes no request, or it asks for the next page where the protocol allows it. -/
  request : ∀ {t s answer t₁ s₁}, P t → k.round t s answer t₁ s₁ →
    k.pager t₁ = k.pager t ∧ s₁ = s ∨
      (k.pager t).more = true ∧ ¬ k.HoldsItem (k.unread t) ∧
        Fetched (k.pager t) s (k.pager t₁) s₁
  round : ∀ {t s t₁ s₁}, P t → k.round t s none t₁ s₁ → P t₁
  /-- A pull does to pager and session what its rounds do. -/
  rounds : ∀ p {t} s, P t → ∃ t₁ s₁ answer t₂, Rounds k.round t s t₁ s₁ ∧
    k.round t₁ s₁ (some answer) t₂ (k.ask p t s).2.2 ∧ k.pager (k.ask p t s).2.1 = k.pager t₂
  ask : ∀ p {t} s, P t → P (k.ask p t s).2.1
  /-- Exactly the pulls that answer with a fault make a stream fail. -/
  failed : ∀ p {t} s, P t →
    (k.state (k.ask p t s).2.1 = .failed ↔ k.state t = .failed ∨ (k.ask p t s).1.isFault = true)
  settled : ∀ {t}, P t → k.state t = .failed ∨ k.state t = .of (k.unread t) (k.pager t).more
  ended : ∀ p {t} s, k.state t = .done ∨ k.state t = .failed → k.ask p t s = (.shaped p none, t, s)
  hasMore : ∀ t, k.hasMore t = (k.state t).isOpen

namespace Lawful

variable {τ α : Type} {k : Kind τ α} {P : τ → Prop} {log : Int64} {first : Page}
  {script : Script} {t t₁ : τ} {s s₁ : Session Script}

theorem round_tracks (hk : Lawful k P) (h : P t) (htracks : Tracks log first script (k.pager t) s)
    {answer : Option (Except Fault (Option Bytes))} (hround : k.round t s answer t₁ s₁) :
    Tracks log first script (k.pager t₁) s₁ := by
  rcases hk.request h hround with ⟨hpager, rfl⟩ | ⟨-, -, hfetched⟩
  · rw [hpager]
    exact htracks
  · exact (htracks.fetched hfetched).1

theorem rounds_tracks (hk : Lawful k P) (h : P t)
    (htracks : Tracks log first script (k.pager t) s) (hrounds : Rounds k.round t s t₁ s₁) :
    P t₁ ∧ Tracks log first script (k.pager t₁) s₁ := by
  apply hrounds.invariant (P := fun t s => P t ∧ Tracks log first script (k.pager t) s)
  · rintro t s t₁ s₁ ⟨ht, hs⟩ hround
    exact ⟨hk.round ht hround, hk.round_tracks ht hs hround⟩
  · exact ⟨h, htracks⟩

theorem ask_tracks (hk : Lawful k P) (h : P t)
    (htracks : Tracks log first script (k.pager t) s) (p : Pull) :
    Tracks log first script (k.pager (k.ask p t s).2.1) (k.ask p t s).2.2 := by
  obtain ⟨t₁, s₁, answer, t₂, hrounds, hround, hpager⟩ := hk.rounds p s h
  obtain ⟨h₁, htracks₁⟩ := hk.rounds_tracks h htracks hrounds
  rw [hpager]
  exact hk.round_tracks h₁ htracks₁ hround

theorem pulls_tracks (hk : Lawful k P) (h : P t)
    (htracks : Tracks log first script (k.pager t) s) (asked : List Pull) :
    P (pulls k.ask asked t s).2.1 ∧
      Tracks log first script (k.pager (pulls k.ask asked t s).2.1)
        (pulls k.ask asked t s).2.2 := by
  induction asked generalizing t s with
  | nil => exact ⟨h, htracks⟩
  | cons p rest ih => exact ih (hk.ask p s h) (hk.ask_tracks h htracks p)

theorem pulls_failed (hk : Lawful k P) (h : P t) (s : Session Script) (asked : List Pull) :
    k.state (pulls k.ask asked t s).2.1 = .failed ↔
      k.state t = .failed ∨ (pulls k.ask asked t s).1.any Reply.isFault = true := by
  induction asked generalizing t s with
  | nil => simp [pulls]
  | cons p rest ih =>
    have hrest := ih (hk.ask p s h) (k.ask p t s).2.2
    rw [hk.failed p s h] at hrest
    simp only [pulls, List.any_cons, Bool.or_eq_true]
    rw [hrest, or_assoc]

theorem pulls_ended (hk : Lawful k P) (hended : k.state t = .done ∨ k.state t = .failed)
    (s : Session Script) (asked : List Pull) :
    pulls k.ask asked t s = (asked.map fun p => .shaped p none, t, s) := by
  induction asked with
  | nil => rfl
  | cons p rest ih => simp only [pulls, hk.ended p s hended, ih, List.map_cons]

/-- A lawful kind of stream keeps to the protocol in every run. -/
theorem protocol (hk : Lawful k P) (h : P t) (hfresh : k.state t ≠ .failed)
    (htracks : Tracks log first script (k.pager t) script.opening) (asked : List Pull) :
    Protocol k log first script (pulls k.ask asked t script.opening).1
      (pulls k.ask asked t script.opening).2.1 (pulls k.ask asked t script.opening).2.2 := by
  obtain ⟨h₁, htracks₁⟩ := hk.pulls_tracks h htracks asked
  have hfailed := hk.pulls_failed h script.opening asked
  generalize pulls k.ask asked t script.opening = out at *
  obtain ⟨replies, t₁, s₁⟩ := out
  dsimp only at *
  have hpager := htracks₁.pager
  refine ⟨htracks₁.calls, fun p => ?_, ?_, by rw [hpager], ?_, ?_, fun hended later => ?_⟩
  · obtain ⟨t₂, s₂, answer, t₃, hrounds, hround, -⟩ := hk.rounds p s₁ h₁
    exact ⟨t₂, s₂, answer, t₃, hrounds, hround⟩
  · intro t₂ s₂ answer t₃ s₃ hrounds hround
    obtain ⟨h₂, htracks₂⟩ := hk.rounds_tracks h₁ htracks₁ hrounds
    rcases hk.request h₂ hround with ⟨-, rfl⟩ | ⟨hmore, hitem, hfetched⟩
    · exact .inl rfl
    · rw [htracks₂.pager] at hmore
      exact .inr ⟨(htracks₂.fetched hfetched).2, hmore, hitem⟩
  · by_cases hfault : replies.any Reply.isFault = true
    · rw [if_pos hfault]
      exact hfailed.mpr (.inr hfault)
    · have hof := (hk.settled h₁).resolve_left (mt hfailed.mp (not_or.mpr ⟨hfresh, hfault⟩))
      rw [if_neg hfault, hof, hpager, StreamState.of]
  · rw [hk.hasMore]
    cases k.state t₁ <;> simp [StreamState.isOpen]
  · exact hk.pulls_ended hended s₁ later

end Lawful

/-- If just the rounds that answer with a fault make a stream fail, so do just such pulls. -/
theorem EndsWith.failed_iff {τ β : Type} {round : Step Script τ (Except Fault β)} {t : τ}
    {s : Session Script} {out : Except Fault β × τ × Session Script} (h : EndsWith round t s out)
    (state : τ → StreamState)
    (hround : ∀ {t s answer t₁ s₁}, round t s answer t₁ s₁ →
      (state t₁ = .failed ↔ state t = .failed ∨ ∃ fault, answer = some (.error fault))) :
    state out.2.1 = .failed ↔ state t = .failed ∨ ∃ fault, out.1 = .error fault := by
  obtain ⟨t₁, s₁, hrounds, hend⟩ := h
  -- The rounds before the last one have no answer, so none of them makes the stream fail.
  have hsame : state t₁ = .failed ↔ state t = .failed := by
    apply hrounds.invariant (P := fun u _ => state u = .failed ↔ state t = .failed)
    · intro u _ u₁ _ hu hnext
      rw [hround hnext, hu]
      simp
    · exact Iff.rfl
  rw [hround hend, hsame]
  simp

/-! ## Streams of records -/

namespace RecordStream

/-- Streams of records; what is unread holds a record unless it is empty. -/
def kind : Kind RecordStream Record where
  pager := RecordStream.pager
  unread := RecordStream.unread
  state := RecordStream.state
  hasMore := RecordStream.hasMore
  HoldsItem unread := unread ≠ []
  round := Round
  ask := ask

variable {r r₁ : RecordStream} {s s₁ : Session Script}
  {answer : Option (Except Fault (Option Bytes))}

theorem Round.request (h : r.Settled) (hround : Round r s answer r₁ s₁) :
    r₁.pager = r.pager ∧ s₁ = s ∨
      r.pager.more = true ∧ ¬ r.unread ≠ [] ∧ Fetched r.pager s r₁.pager s₁ := by
  have hpageRead (hstate : r.state = .pageRead) : r.pager.more = true ∧ ¬ r.unread ≠ [] := by
    obtain ⟨hof, -⟩ := h.resolve_left (by simp [hstate])
    obtain ⟨hunread, hmore⟩ := StreamState.of_eq_pageRead_iff.mp (hof.symm.trans hstate)
    exact ⟨hmore, not_not_intro hunread⟩
  cases hround with
  | ended hstate => exact .inl ⟨rfl, rfl⟩
  | record hstate => exact .inl ⟨rfl, rfl⟩
  | unfetched hstate hfetch =>
    exact .inr ⟨(hpageRead hstate).1, (hpageRead hstate).2, .error hfetch⟩
  | refused hstate hfetch _ =>
    exact .inr ⟨(hpageRead hstate).1, (hpageRead hstate).2, .ok hfetch⟩
  | taken hstate hfetch _ =>
    exact .inr ⟨(hpageRead hstate).1, (hpageRead hstate).2, .ok hfetch⟩

theorem Round.failed_iff (hround : Round r s answer r₁ s₁) :
    r₁.state = .failed ↔ r.state = .failed ∨ ∃ fault, answer = some (.error fault) := by
  cases hround with
  | ended hstate => simp
  | record hstate => simp [hstate, StreamState.of_ne_failed]
  | unfetched hstate hfetch => simp
  | refused hstate hfetch _ => simp
  | taken hstate hfetch _ => simp [hstate, StreamState.of_ne_failed]

theorem pull_failed_iff (r : RecordStream) (s : Session Script) :
    (r.pull s).2.1.state = .failed ↔
      r.state = .failed ∨ ∃ fault, (r.pull s).1 = .error fault :=
  (pull_endsWith r s).failed_iff RecordStream.state Round.failed_iff

theorem ask_pull (p : Pull) (r : RecordStream) (s : Session Script) :
    (ask p r s).2 = (r.pull s).2 := by
  rcases heq : r.pull s with ⟨fault | _ | data, r₁, s₁⟩ <;> cases p <;> simp [ask, next, heq]

theorem isFault_ask (h : r.Settled) (p : Pull) :
    (ask p r s).1.isFault = true ↔ ∃ fault, (r.pull s).1 = .error fault := by
  obtain ⟨-, -, hgives⟩ := pull_gives (s := s) h
  obtain ⟨hreply, -⟩ := ask_remaining (s := s) h p
  rw [hreply]
  rcases heq : (r.pull s).1 with fault | _ | data
  · rw [heq] at hgives
    rw [hgives.1]
    cases p <;> simp [reply, Reply.shaped, Reply.isFault, Except.map]
  · rw [heq] at hgives
    rw [hgives.1]
    cases p <;> simp [reply, Reply.shaped, Reply.isFault]
  · rw [heq] at hgives
    obtain ⟨hsize, hbefore⟩ := hgives
    rw [hbefore]
    cases p <;> simp [reply, Reply.shaped, Reply.isFault, Except.map]

theorem lawful : Lawful kind Settled where
  request h hround := Round.request h hround
  round h hround := (Round.remaining_eq h hround).2.1
  rounds p r s _ := by
    obtain ⟨r₁, s₁, hrounds, hend⟩ := pull_endsWith r s
    have hask : (kind.ask p r s).2 = (r.pull s).2 := ask_pull p r s
    rw [hask]
    exact ⟨r₁, s₁, _, _, hrounds, hend, rfl⟩
  ask p r s h := (ask_remaining h p).2.2.2
  failed p r s h := by
    have hask : (kind.ask p r s).2 = (r.pull s).2 := ask_pull p r s
    rw [hask]
    exact (pull_failed_iff r s).trans (or_congr_right (isFault_ask h p).symm)
  settled h := h.imp_right And.left
  ended p r s hstate := by
    have hpull : r.pull s = (.ok none, r, s) := by
      rw [pull]
      rcases hstate with hstate | hstate <;> rw [show r.state = _ from hstate]
    cases p <;> simp [kind, ask, next, hpull, inverted, Reply.shaped]
  hasMore r := rfl

end RecordStream

/-! ## Streams of alerts -/

namespace AlertStream

/-- Streams of alerts; what is unread holds a line if it holds the end of one. -/
def kind : Kind AlertStream String where
  pager := AlertStream.pager
  unread := AlertStream.unread
  state := AlertStream.state
  hasMore := AlertStream.hasMore
  HoldsItem unread := lineFeed ∈ unread
  round := Round
  ask := ask

variable {a a₁ : AlertStream} {s s₁ : Session Script}
  {answer : Option (Except Fault (Option Bytes))}

theorem Round.request (hround : Round a s answer a₁ s₁) :
    a₁.pager = a.pager ∧ s₁ = s ∨
      a.pager.more = true ∧ lineFeed ∉ a.unread ∧ Fetched a.pager s a₁.pager s₁ := by
  cases hround with
  | ended hstate => exact .inl ⟨rfl, rfl⟩
  | blank hstate hcut => exact .inl ⟨rfl, rfl⟩
  | line hstate hcut hline => exact .inl ⟨rfl, rfl⟩
  | unfetched hstate hcut hmore hfetch =>
    exact .inr ⟨hmore, cutLine?_eq_none_iff.mp hcut, .error hfetch⟩
  | taken hstate hcut hmore hfetch =>
    exact .inr ⟨hmore, cutLine?_eq_none_iff.mp hcut, .ok hfetch⟩
  | tail hstate hcut hmore => exact .inl ⟨rfl, rfl⟩

theorem Round.failed_iff (hround : Round a s answer a₁ s₁) :
    a₁.state = .failed ↔ a.state = .failed ∨ ∃ fault, answer = some (.error fault) := by
  have hopen (hstate : a.state.isOpen = true) : a.state ≠ .failed := by
    intro hfailed
    rw [hfailed] at hstate
    cases hstate
  cases hround with
  | ended hstate => simp
  | blank hstate hcut => simp [hopen hstate, StreamState.of_ne_failed]
  | line hstate hcut hline => simp [hopen hstate, StreamState.of_ne_failed]
  | unfetched hstate hcut hmore hfetch => simp
  | taken hstate hcut hmore hfetch => simp [hopen hstate, StreamState.of_ne_failed]
  | tail hstate hcut hmore => simp [hopen hstate, StreamState.of_ne_failed]

theorem pull_failed_iff (a : AlertStream) (s : Session Script) :
    (a.pull s).2.1.state = .failed ↔
      a.state = .failed ∨ ∃ fault, (a.pull s).1 = .error fault :=
  (pull_endsWith a s).failed_iff AlertStream.state Round.failed_iff

theorem ask_pull (p : Pull) (a : AlertStream) (s : Session Script) :
    (ask p a s).2.1.pager = (a.pull s).2.1.pager ∧ (ask p a s).2.2 = (a.pull s).2.2 := by
  rcases heq : a.pull s with ⟨fault | _ | line, a₁, s₁⟩
  · cases p <;> simp [ask, next, heq]
  · cases p <;> simp [ask, next, heq]
  · cases hdecode : Text.Utf8.decode line <;> cases p <;> simp [ask, next, heq, hdecode]

theorem ask_failed_iff (p : Pull) (a : AlertStream) (s : Session Script) :
    (ask p a s).2.1.state = .failed ↔ a.state = .failed ∨ (ask p a s).1.isFault = true := by
  have hpull := pull_failed_iff a s
  rcases heq : a.pull s with ⟨fault | _ | line, a₁, s₁⟩ <;> rw [heq] at hpull
  · cases p <;> simpa [ask, next, heq, inverted, Reply.isFault] using hpull
  · cases p <;> simpa [ask, next, heq, inverted, Reply.isFault] using hpull
  · cases hdecode : Text.Utf8.decode line with
    | error flaw => cases p <;> simp [ask, next, heq, hdecode, inverted, Reply.isFault]
    | ok text => cases p <;> simpa [ask, next, heq, hdecode, inverted, Reply.isFault] using hpull

theorem lawful : Lawful kind Settled where
  request _ hround := Round.request hround
  round h hround := (Round.remaining_eq h hround).1
  rounds p a s _ := by
    obtain ⟨a₁, s₁, hrounds, hend⟩ := pull_endsWith a s
    obtain ⟨hpager, hsession⟩ := ask_pull p a s
    exact ⟨a₁, s₁, _, _, hrounds, hsession ▸ hend, hpager⟩
  ask p a s h := by
    have hsettled := (next_remaining (s := s) h).2.2
    cases p <;> exact hsettled
  failed p a s _ := ask_failed_iff p a s
  settled h := h
  ended p a s hstate := by
    have hpull : a.pull s = (.ok none, a, s) := by
      rw [pull]
      rcases hstate with hstate | hstate <;> rw [show a.state = _ from hstate]
    cases p <;> simp [kind, ask, next, hpull, inverted, Reply.shaped]
  hasMore a := rfl

end AlertStream

/-- Both kinds of streams keep to the protocol in every run of pulls, whatever the replies. -/
theorem streams_keep_protocol (log : Int64) (first : Page) (script : Script)
    (asked : List Pull) :
    (∀ schema r, RecordStream.start log schema first = .ok r →
      let out := pulls RecordStream.ask asked r script.opening
      Protocol RecordStream.kind log first script out.1 out.2.1 out.2.2) ∧
    (let out := pulls AlertStream.ask asked (.start log first) script.opening
     Protocol AlertStream.kind log first script out.1 out.2.1 out.2.2) := by
  constructor
  · intro schema r hstart
    unfold RecordStream.start RecordStream.checkPage at hstart
    split at hstart
    · next hdiv =>
      simp only [Except.map, Except.ok.injEq] at hstart
      subst hstart
      refine RecordStream.lawful.protocol ?_ ?_ ?_ asked
      · exact .inr ⟨rfl, hdiv⟩
      · exact StreamState.of_ne_failed first.data first.more
      · exact .start log first script
    · cases hstart
  · refine AlertStream.lawful.protocol ?_ ?_ ?_ asked
    · exact .inr rfl
    · exact StreamState.of_ne_failed first.data first.more
    · exact .start log first script

/-- A first page with one record, then an empty page and one that is not to be had. -/
theorem streams_keep_protocol_over_empty_page :
    let schema : Schema := ⟨.timestamp, [], rfl, rfl, ⟨rfl, rfl, trivial⟩⟩
    let first : Page := ⟨⟨7, 0, 0, 0⟩, [1, 0, 0, 0, 0, 0, 0, 0], true⟩
    let script : Script := ⟨[.ok ⟨⟨8, 0, 0, 0⟩, [], true⟩], .transport "closed"⟩
    let r : RecordStream := ⟨schema, .start 5 first, first.data, .hasData⟩
    RecordStream.start 5 schema first = .ok r ∧
      let out := pulls RecordStream.ask [.next, .iterate, .next] r script.opening
      Protocol RecordStream.kind 5 first script out.1 out.2.1 out.2.2 := by
  intro schema first script r
  have hdiv : schema.Divides first.data := by decide
  have hstart : RecordStream.start 5 schema first = .ok r := by
    rw [RecordStream.start, RecordStream.checkPage, if_pos hdiv]
    rfl
  exact ⟨hstart, (streams_keep_protocol 5 first script _).1 schema r hstart⟩

end RecordLog
