import RecordLog.Client.Append
import RecordLog.Client.Query
import RecordLog.Client.Read
import RecordLog.Proofs.Stream.Alerts
import RecordLog.Proofs.Stream.Records

/-!
# What actions ask of the service

Actions are put together from a few that are not: those that leave the client as it is, the one
that makes a request, and pulls from a stream. So which requests an action can make is found from
the requests of its parts, the ones behind a check being made only if the check was passed.
-/

namespace RecordLog

variable {σ : Type}

/-- Whether a session went on to another one by requests that have a property. -/
def Session.Extends (P : Request → Prop) (s t : Session σ) : Prop :=
  ∃ requests, t.calls = s.calls ++ requests ∧ ∀ r ∈ requests, P r

namespace Session

theorem call_calls [Service σ] (s : Session σ) (r : Request) :
    (s.call r).2.calls = s.calls ++ [r] := rfl

theorem calls_of_call [Service σ] {s t : Session σ} {r : Request} {answer : Except Fault r.Answer}
    (h : s.call r = (answer, t)) : t.calls = s.calls ++ [r] := by
  rw [← s.call_calls r, h]

end Session

namespace Session.Extends

variable {P Q : Request → Prop} {s t u : Session σ}

theorem refl (s : Session σ) : s.Extends P s :=
  ⟨[], (List.append_nil _).symm, fun _ hr => absurd hr List.not_mem_nil⟩

theorem trans (h : s.Extends P t) (hnext : t.Extends P u) : s.Extends P u := by
  obtain ⟨requests, hcalls, hall⟩ := h
  obtain ⟨later, hlater, hallLater⟩ := hnext
  refine ⟨requests ++ later, ?_, ?_⟩
  · rw [hlater, hcalls, List.append_assoc]
  · intro r hr
    exact (List.mem_append.mp hr).elim (hall r) (hallLater r)

theorem mono (h : s.Extends P t) (himp : ∀ r, P r → Q r) : s.Extends Q t := by
  obtain ⟨requests, hcalls, hall⟩ := h
  exact ⟨requests, hcalls, fun r hr => himp r (hall r hr)⟩

theorem call [Service σ] {r : Request} (h : P r) (s : Session σ) : s.Extends P (s.call r).2 := by
  refine ⟨[r], rfl, ?_⟩
  intro q hq
  rw [List.mem_singleton.mp hq]
  exact h

end Session.Extends

/-! ## Streams -/

/-- Whether a request is for a further page of a result from a log. -/
def Request.IsPageOf (log : Int64) (r : Request) : Prop := ∃ d, r = .nextPage log d

/-- What every round keeps holds behind a pull. -/
theorem EndsWith.keeps {τ α : Type} {round : Step σ τ α} {P : τ → Session σ → Prop}
    {t : τ} {s : Session σ} {out : α × τ × Session σ} (h : EndsWith round t s out)
    (hround : ∀ t s answer t₁ s₁, P t s → round t s answer t₁ s₁ → P t₁ s₁) (hstart : P t s) :
    P out.2.1 out.2.2 := by
  obtain ⟨t₁, s₁, hrounds, hlast⟩ := h
  have hkeep := hrounds.invariant (fun t s t₁ s₁ => hround t s none t₁ s₁) hstart
  exact hround t₁ s₁ (some out.1) out.2.1 out.2.2 hkeep hlast

/-- What every pull keeps holds behind a run of pulls. -/
theorem pulls_keep {τ α : Type} {ask : Pull → τ → Session σ → Reply α × τ × Session σ}
    {P : τ → Session σ → Prop} (hask : ∀ p t s, P t s → P (ask p t s).2.1 (ask p t s).2.2)
    (asked : List Pull) {t : τ} {s : Session σ} (h : P t s) :
    P (pulls ask asked t s).2.1 (pulls ask asked t s).2.2 := by
  induction asked generalizing t s with
  | nil => exact h
  | cons p rest ih => exact ih (hask p t s h)

section Pages

variable [Service σ]

theorem Pager.extends_of_fetch {p : Pager} {s t : Session σ} {answer : Except Fault Page}
    (h : p.fetch s = (answer, t)) : s.Extends (Request.IsPageOf p.log) t := by
  have hpage : Request.IsPageOf p.log p.request := ⟨p.descriptor, rfl⟩
  have hcall := Session.Extends.call hpage s
  have ht : (s.call p.request).2 = t := congrArg Prod.snd h
  rw [ht] at hcall
  exact hcall

/-- Whether a pager and a session are behind another session by requests for pages of a log, which
the pager still goes through. -/
def Pages (log : Int64) (s : Session σ) (p : Pager) (t : Session σ) : Prop :=
  p.log = log ∧ s.Extends (Request.IsPageOf log) t

namespace Pages

variable {log : Int64} {s t u : Session σ} {p : Pager}

theorem fetch {answer : Except Fault Page} (h : Pages log s p t)
    (hfetch : p.fetch t = (answer, u)) : s.Extends (Request.IsPageOf log) u := by
  have hnext := Pager.extends_of_fetch hfetch
  rw [h.1] at hnext
  exact h.2.trans hnext

end Pages

namespace RecordStream

variable {log : Int64} {s : Session σ}

theorem Round.pages {r r₁ : RecordStream} {t u : Session σ}
    {answer : Option (Except Fault (Option Bytes))} (h : Pages log s r.pager t)
    (hround : Round r t answer r₁ u) : Pages log s r₁.pager u := by
  cases hround with
  | ended => exact h
  | record => exact h
  | unfetched _ hfetch => exact ⟨h.1, h.fetch hfetch⟩
  | refused _ hfetch => exact ⟨h.1, h.fetch hfetch⟩
  | taken _ hfetch => exact ⟨h.1, h.fetch hfetch⟩

theorem next_eq_pull (r : RecordStream) (isView : Bool) (s : Session σ) :
    (r.next isView s).2 = (r.pull s).2 := by
  rw [next]
  split
  · next h => rw [h]
  · next h => rw [h]
  · next h => rw [h]

/-- Asking for a record asks the service for nothing but pages of the stream's result. -/
theorem ask_pages (p : Pull) {r : RecordStream} {t : Session σ} (h : Pages log s r.pager t) :
    Pages log s (ask p r t).2.1.pager (ask p r t).2.2 := by
  have hpull : Pages log s (r.pull t).2.1.pager (r.pull t).2.2 :=
    (pull_endsWith r t).keeps (P := fun r t => Pages log s r.pager t)
      (fun _ _ _ _ _ h hround => hround.pages h) h
  cases p with
  | next =>
    have hnext := r.next_eq_pull true t
    rw [← hnext] at hpull
    exact hpull
  | iterate =>
    have hnext := r.next_eq_pull false t
    rw [← hnext] at hpull
    exact hpull

end RecordStream

namespace AlertStream

variable {log : Int64} {s : Session σ}

theorem Round.pages {a a₁ : AlertStream} {t u : Session σ}
    {answer : Option (Except Fault (Option Bytes))} (h : Pages log s a.pager t)
    (hround : Round a t answer a₁ u) : Pages log s a₁.pager u := by
  cases hround with
  | ended => exact h
  | blank => exact h
  | line => exact h
  | unfetched _ _ _ hfetch => exact ⟨h.1, h.fetch hfetch⟩
  | taken _ _ _ hfetch => exact ⟨h.1, h.fetch hfetch⟩
  | tail => exact h

theorem next_eq_pull (a : AlertStream) (s : Session σ) :
    (a.next s).2.1.pager = (a.pull s).2.1.pager ∧ (a.next s).2.2 = (a.pull s).2.2 := by
  rw [next]
  split
  · next h => simp only [h, and_self]
  · next h => simp only [h, and_self]
  · next h =>
    split <;> simp only [h, and_self]

/-- Asking for an alert asks the service for nothing but pages of the stream's result. -/
theorem ask_pages (p : Pull) {a : AlertStream} {t : Session σ} (h : Pages log s a.pager t) :
    Pages log s (ask p a t).2.1.pager (ask p a t).2.2 := by
  have hpull : Pages log s (a.pull t).2.1.pager (a.pull t).2.2 :=
    (pull_endsWith a t).keeps (P := fun a t => Pages log s a.pager t)
      (fun _ _ _ _ _ h hround => hround.pages h) h
  obtain ⟨hpager, hsession⟩ := a.next_eq_pull t
  rw [← hpager, ← hsession] at hpull
  cases p with
  | next => exact hpull
  | iterate => exact hpull

end AlertStream

end Pages

/-! ## Actions -/

namespace Client

/-- Pulls from a stream over the client's service, one after the other. -/
def pullAll {τ α : Type} (ask : Pull → τ → Session σ → Reply α × τ × Session σ)
    (asked : List Pull) (stream : τ) : Action σ (List (Reply α)) := fun c =>
  let (replies, _, session) := pulls ask asked stream c.session
  (.ok replies, { c with session })

theorem run_bind {α β : Type} (first : Action σ α) (next : α → Action σ β) (c : Client σ) :
    (first >>= next).run c =
      match first.run c with
      | (.ok a, d) => (next a).run d
      | (.error fault, d) => (.error fault, d) := by
  change (ExceptT.bindCont next (first.run c).1).run (first.run c).2 = _
  rcases first.run c with ⟨_ | _, d⟩ <;> rfl

theorem ok_of_bind {α β : Type} {first : Action σ α} {next : α → Action σ β} {c : Client σ} {b : β}
    (hok : ((first >>= next).run c).1 = .ok b) :
    ∃ a, (first.run c).1 = .ok a ∧ ((next a).run (first.run c).2).1 = .ok b := by
  rw [run_bind] at hok
  cases hfirst : first.run c with
  | mk answer d =>
    rw [hfirst] at hok
    cases answer with
    | error fault => cases hok
    | ok a => exact ⟨a, rfl, hok⟩

/-- Whether an action goes on from a client by requests that have a property, and leaves its setup
and its connection as they were. -/
structure Makes {α : Type} (P : Request → Prop) (act : Action σ α) (c : Client σ) : Prop where
  config : (act.run c).2.config = c.config
  connected : (act.run c).2.connected = c.connected
  session : c.session.Extends P (act.run c).2.session

namespace Makes

variable {α β : Type} {P : Request → Prop} {c : Client σ}

/-- An action that leaves the client as it is makes no requests. -/
theorem silent {act : Action σ α} (h : (act.run c).2 = c) : Makes P act c where
  config := congrArg Client.config h
  connected := congrArg Client.connected h
  session := by
    rw [h]
    exact .refl c.session

/-- What is done behind a part that is passed is done by a client that it was passed with. -/
theorem bind {first : Action σ α} {next : α → Action σ β} (hfirst : Makes P first c)
    (hnext : ∀ a, (first.run c).1 = .ok a → Makes P (next a) (first.run c).2) :
    Makes P (first >>= next) c := by
  cases h : first.run c with
  | mk answer d =>
    obtain ⟨hconfig, hconnected, hsession⟩ := hfirst
    rw [h] at hconfig hconnected hsession hnext
    have hrun := run_bind first next c
    rw [h] at hrun
    cases answer with
    | error fault =>
      refine ⟨?_, ?_, ?_⟩ <;> rw [hrun]
      · exact hconfig
      · exact hconnected
      · exact hsession
    | ok a =>
      have hrest := hnext a rfl
      refine ⟨?_, ?_, ?_⟩ <;> rw [hrun]
      · exact hrest.config.trans hconfig
      · exact hrest.connected.trans hconnected
      · exact hsession.trans hrest.session

theorem bind_lift {result : Except Fault α} {next : α → Action σ β}
    (hnext : ∀ a, result = .ok a → Makes P (next a) c) : Makes P (lift result >>= next) c :=
  bind (silent rfl) hnext

theorem bind_get {next : Client σ → Action σ β} (h : Makes P (next c) c) :
    Makes P (get >>= next) c := by
  apply bind (silent rfl)
  intro d hd
  obtain rfl : c = d := Except.ok.inj hd
  exact h

theorem request [Service σ] {r : Request} (h : P r) (c : Client σ) : Makes P (request r) c := by
  by_cases hconnected : c.connected
  · have hrun : (Client.request r).run c =
        ((c.session.call r).1, { c with session := (c.session.call r).2 }) := if_pos hconnected
    refine ⟨?_, ?_, ?_⟩ <;> rw [hrun]
    exact .call h c.session
  · have hrun : (Client.request r).run c = (.error .disconnected, c) := if_neg hconnected
    exact silent (by rw [hrun])

/-- A request, and something made of its answer without asking for more. -/
theorem request_lift [Service σ] {r : Request} (h : P r) (f : r.Answer → Except Fault α)
    (c : Client σ) : Makes P (Client.request r >>= fun a => lift (f a)) c :=
  bind (request h c) fun _ _ => silent rfl

theorem ensureConnected : Makes P ensureConnected c := by
  apply silent
  by_cases hconnected : c.connected
  · exact congrArg Prod.snd (if_pos hconnected)
  · exact congrArg Prod.snd (if_neg hconnected)

theorem pullAll {τ : Type} {ask : Pull → τ → Session σ → Reply α × τ × Session σ}
    {asked : List Pull} {stream : τ}
    (h : c.session.Extends P (pulls ask asked stream c.session).2.2) :
    Makes P (pullAll ask asked stream) c :=
  ⟨rfl, rfl, h⟩

end Makes

/-- A query, and pulls from the stream that it opens over the pages of a log. -/
theorem makes_pulls {τ α : Type} {ask : Pull → τ → Session σ → Reply α × τ × Session σ}
    {P : Request → Prop} {c : Client σ} {query : Action σ τ} {asked : List Pull} {log : Int64}
    (pager : τ → Pager)
    (hask : ∀ {s : Session σ} (p : Pull) {t : τ} {u : Session σ}, Pages log s (pager t) u →
      Pages log s (pager (ask p t u).2.1) (ask p t u).2.2)
    (hquery : Makes P query c) (hlog : ∀ t, (query.run c).1 = .ok t → (pager t).log = log)
    (hpage : ∀ d, P (.nextPage log d)) : Makes P (query >>= pullAll ask asked) c := by
  apply Makes.bind hquery
  intro stream hstream
  have hpages := pulls_keep (P := fun t u => Pages log (query.run c).2.session (pager t) u)
    (fun p _ _ => hask p) asked ⟨hlog stream hstream, .refl _⟩
  apply Makes.pullAll
  apply hpages.2.mono
  rintro _ ⟨d, rfl⟩
  exact hpage d

end Client

end RecordLog
