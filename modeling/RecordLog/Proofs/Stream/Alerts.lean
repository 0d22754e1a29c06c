import RecordLog.Proofs.Stream.Lines

/-!
# What a stream of alerts gives

At every moment the alerts that a stream has still to give can be told from what it has not read
and from the script: they are the alerts in the unread bytes followed by the bytes of the pages
that are still to come. A round either leaves them as they are or gives out the first of them.
The main statement is that the pulls on a stream give the alerts of its result, wherever the pages
are cut and in whatever way the stream is asked.
-/

namespace RecordLog

namespace AlertStream

def ask {σ : Type} [Service σ] (p : Pull) (a : AlertStream) (s : Session σ) :
    Reply String × AlertStream × Session σ :=
  let (answer, a, s) := a.next s
  match p with
  | .next => (.result answer, a, s)
  | .iterate => (.item (inverted answer), a, s)

/-- Whether the state of a stream tells what is unread and whether there are more pages. -/
def Settled (a : AlertStream) : Prop := a.state = .failed ∨ a.state = .of a.unread a.pager.more

/-- The alerts that a stream has still to give. -/
def remaining (a : AlertStream) (s : Session Script) : List (Except Fault String) :=
  if a.state = .failed then []
  else
    let later := ahead (fun _ => none) s.state.exhausted a.pager.more s.state.replies
    Delivery.alerts ⟨a.unread ++ later.data, later.fault⟩

theorem remaining_failed {a : AlertStream} (h : a.state = .failed) (s : Session Script) :
    a.remaining s = [] := by
  rw [remaining, if_pos h]

theorem remaining_of {a : AlertStream} (h : a.state = .of a.unread a.pager.more)
    (s : Session Script) :
    a.remaining s =
      let later := ahead (fun _ => none) s.state.exhausted a.pager.more s.state.replies
      Delivery.alerts ⟨a.unread ++ later.data, later.fault⟩ := by
  rw [remaining, if_neg (h ▸ StreamState.of_ne_failed _ _)]

theorem of_isOpen {a : AlertStream} (h : a.Settled) (hopen : a.state.isOpen = true) :
    a.state = .of a.unread a.pager.more := by
  rcases h with h | h
  · rw [h] at hopen
    cases hopen
  · exact h

end AlertStream

theorem Delivery.alerts_nil : Delivery.alerts ⟨[], none⟩ = [] := by
  rw [alerts, linesOf_of_not_mem List.not_mem_nil]
  rfl

theorem Delivery.alerts_line {line : Bytes} (hline : lineFeed ∉ line) (rest : Bytes)
    (fault : Option Fault) :
    Delivery.alerts ⟨line ++ lineFeed :: rest, fault⟩ =
      textsOf (Delivery.alerts ⟨rest, fault⟩) ([line].filter (· ≠ [])) := by
  have htexts (after : List (Except Fault String)) (lines : List Bytes) :
      textsOf after ([line].filter (· ≠ []) ++ lines) =
        textsOf (textsOf after lines) ([line].filter (· ≠ [])) := by
    by_cases hempty : line = []
    · simp [hempty, textsOf]
    · simp [hempty, textsOf]
  cases fault with
  | none => simp only [Delivery.alerts, linesOf_line hline, htexts]
  | some fault => simp only [Delivery.alerts, endedLinesOf_line hline, htexts]

namespace AlertStream

variable {a a₁ : AlertStream} {s s₁ : Session Script}

/-- A round that does not end a pull takes nothing away from what a stream has to give. -/
theorem Round.remaining_eq (h : a.Settled) (hround : Round a s none a₁ s₁) :
    a₁.Settled ∧ a₁.remaining s₁ = a.remaining s := by
  cases hround with
  | @blank rest hopen hcut =>
    have hof := of_isOpen h hopen
    obtain ⟨hunread, hmem⟩ := eq_of_cutLine?_eq_some hcut
    refine ⟨.inr rfl, ?_⟩
    rw [remaining_of hof, remaining_of rfl, hunread]
    simp only [List.nil_append, List.cons_append]
    exact (Delivery.alerts_line hmem _ _).symm
  | @taken page _ hopen hcut hmore hfetch =>
    have hof := of_isOpen h hopen
    refine ⟨.inr rfl, ?_⟩
    rw [remaining_of hof, remaining_of rfl, hmore, Pager.ahead_of_fetch_ok _ hfetch]
    simp only [Pager.turn, List.append_assoc]

/-- What the answer that ends a pull says about what a stream has to give before the pull and
after it. -/
def Gives (answer : Except Fault (Option Bytes)) (before after : List (Except Fault String)) :
    Prop :=
  match answer with
  | .ok none => before = [] ∧ after = []
  | .ok (some line) => before = textsOf after [line]
  | .error fault => before = [.error fault] ∧ after = []

theorem Round.gives {answer : Except Fault (Option Bytes)} (h : a.Settled)
    (hround : Round a s (some answer) a₁ s₁) :
    a₁.Settled ∧ Gives answer (a.remaining s) (a₁.remaining s₁) := by
  cases hround with
  | ended hclosed =>
    refine ⟨h, ?_⟩
    rcases h with hfailed | hof
    · exact ⟨remaining_failed hfailed s, remaining_failed hfailed s⟩
    · have hnone := mt StreamState.isOpen_of_iff.mpr (Bool.not_eq_true _ ▸ hof ▸ hclosed)
      obtain ⟨hunread, hmore⟩ : a.unread = [] ∧ a.pager.more = false := by simpa using hnone
      have hnothing : a.remaining s = [] := by
        rw [remaining_of hof, hunread, hmore]
        simp only [ahead, List.append_nil, Delivery.alerts_nil]
      exact ⟨hnothing, hnothing⟩
  | @line line rest hopen hcut hline =>
    have hof := of_isOpen h hopen
    obtain ⟨hunread, hmem⟩ := eq_of_cutLine?_eq_some hcut
    refine ⟨.inr rfl, ?_⟩
    rw [Gives, remaining_of hof, remaining_of rfl, hunread]
    simp only [List.cons_append, List.append_assoc]
    rw [Delivery.alerts_line hmem]
    simp [hline]
  | @unfetched fault _ hopen hcut hmore hfetch =>
    have hof := of_isOpen h hopen
    refine ⟨.inl rfl, ?_, remaining_failed rfl _⟩
    rw [remaining_of hof, hmore, Pager.ahead_of_fetch_error _ hfetch]
    simp only [List.append_nil, Delivery.alerts]
    rw [endedLinesOf_of_not_mem (cutLine?_eq_none_iff.mp hcut), textsOf]
  | tail hopen hcut hmore =>
    have hof := of_isOpen h hopen
    have hunread : a.unread ≠ [] := by
      rcases StreamState.isOpen_of_iff.mp (hof ▸ hopen) with hunread | htrue
      · exact hunread
      · rw [hmore] at htrue
        cases htrue
    refine ⟨.inr rfl, ?_⟩
    rw [Gives, remaining_of hof, remaining_of rfl]
    simp only [hmore, ahead, List.append_nil, Delivery.alerts_nil]
    rw [Delivery.alerts, linesOf_of_not_mem (cutLine?_eq_none_iff.mp hcut)]
    simp [hunread]

theorem pull_gives (h : a.Settled) :
    (a.pull s).2.1.Settled ∧
      Gives (a.pull s).1 (a.remaining s) ((a.pull s).2.1.remaining (a.pull s).2.2) := by
  obtain ⟨a₁, s₁, hrounds, hend⟩ := pull_endsWith a s
  have hsame : a₁.Settled ∧ a₁.remaining s₁ = a.remaining s := by
    apply hrounds.invariant (P := fun b t => b.Settled ∧ b.remaining t = a.remaining s)
    · intro b t b₁ t₁ hb hround
      obtain ⟨hsettled, heq⟩ := hround.remaining_eq hb.1
      exact ⟨hsettled, heq.trans hb.2⟩
    · exact ⟨h, rfl⟩
  rw [← hsame.2]
  exact hend.gives hsame.1

/-- A pull gives out the first alert that remains, and the others remain. -/
theorem next_remaining (h : a.Settled) :
    inverted (a.next s).1 = (a.remaining s).head? ∧
      (a.next s).2.1.remaining (a.next s).2.2 = (a.remaining s).tail ∧
      (a.next s).2.1.Settled := by
  have hpull := pull_gives (s := s) h
  rw [next]
  rcases heq : a.pull s with ⟨answer, a₁, s₁⟩
  rw [heq] at hpull
  obtain ⟨hsettled, hgives⟩ := hpull
  rcases answer with fault | _ | line
  · obtain ⟨hbefore, hafter⟩ := hgives
    rw [hbefore]
    exact ⟨rfl, hafter, hsettled⟩
  · obtain ⟨hbefore, hafter⟩ := hgives
    rw [hbefore]
    exact ⟨rfl, hafter, hsettled⟩
  · have hbefore : a.remaining s = textsOf (a₁.remaining s₁) [line] := hgives
    rw [hbefore]
    cases hdecode : Text.Utf8.decode line with
    | ok text => simp [textsOf, hdecode, inverted, hsettled]
    | error flaw => simp [textsOf, hdecode, inverted, remaining_failed, Settled]

/-- Pulls on a stream of alerts answer with the lines of all pages put together; and a line is
read as a text exactly if it is the encoding of that text. -/
theorem pulls_eq_lines (log : Int64) (first : Page) (script : Script) (asked : List Pull) :
    (pulls ask asked (start log first) script.opening).1 =
      (asked.mapIdx fun i p => .shaped p (script.deliver (fun _ => none) first).alerts[i]?) ∧
    ∀ line text, Text.Utf8.decode line = .ok text ↔ Text.Utf8.encode text = line := by
  refine ⟨?_, fun line text => Text.Utf8.decode_eq_ok_iff⟩
  have hstart : (start log first).remaining script.opening =
      (script.deliver (fun _ => none) first).alerts := remaining_of rfl _
  rw [← hstart]
  refine (pulls_answer (P := fun a _ => a.Settled) _ ?_ asked _ _ (.inr rfl)).1
  intro p a s h
  obtain ⟨hanswer, htail, hsettled⟩ := next_remaining (s := s) h
  refine ⟨(a.next s).2.1, (a.next s).2.2, ?_, htail, hsettled⟩
  rw [← hanswer, ask]
  rcases a.next s with ⟨fault | _ | text, a₁, s₁⟩ <;> cases p <;> rfl

end AlertStream

end RecordLog
