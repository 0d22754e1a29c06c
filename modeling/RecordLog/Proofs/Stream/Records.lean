import RecordLog.Proofs.Schema.Cutting
import RecordLog.Proofs.Stream.Rounds

/-!
# Records are the pieces of all pages together

Every page that a stream of records takes in holds a whole number of records, so the bytes of all
pages put together are cut into the same records as the pages one by one. The main statement is
that the pulls on a stream give these records in order, and behind them the fault that kept the
next page away, if there was one.
-/

namespace RecordLog

namespace Schema

theorem divides_of_refusal {s : Schema} {page : Bytes} (h : s.refusal page = none) :
    s.Divides page := by
  unfold refusal at h
  split at h
  · next hdiv => exact hdiv
  · cases h

/-- What pages that are not refused bring is whole records. -/
theorem divides_ahead (s : Schema) (exhausted : Fault) (more : Bool)
    (replies : List (Except Fault Page)) :
    s.Divides (ahead s.refusal exhausted more replies).data := by
  induction replies generalizing more with
  | nil => cases more <;> exact Nat.zero_mod _
  | cons reply rest ih =>
    cases more with
    | false => exact Nat.zero_mod _
    | true =>
      cases reply with
      | error fault => exact Nat.zero_mod _
      | ok page =>
        rw [ahead]
        split
        · exact Nat.zero_mod _
        · next hrefusal => exact divides_append (divides_of_refusal hrefusal) (ih page.more)

end Schema

/-- The items of a result that holds records: the records themselves, and behind them the fault
that kept a page away. -/
def Delivery.items (d : Delivery) (records : List Record) : List (Except Fault Record) :=
  records.map .ok ++ d.fault.toList.map .error

namespace RecordStream

/-- Asks for the next record. The operation of the stream gives a view into the page, the iterator
a record with bytes of its own. -/
def ask {σ : Type} [Service σ] : Pull → RecordStream → Session σ →
    Reply Record × RecordStream × Session σ
  | .next, r, s =>
    let (answer, r, s) := r.next true s
    (.result answer, r, s)
  | .iterate, r, s =>
    let (answer, r, s) := r.next false s
    (.item (inverted answer), r, s)

/-- A record in the form that a way of asking gives it. -/
def held : Pull → Record → Record
  | .next, record => record
  | .iterate, record => record.toOwned

/-- The reply to a pull that is given an item, or nothing. -/
def reply (p : Pull) (item : Option (Except Fault Record)) : Reply Record :=
  .shaped p (item.map (Except.map (held p)))

/-- Whether the state of a stream tells what is unread and whether there are more pages, and what
is unread is whole records. -/
def Settled (r : RecordStream) : Prop :=
  r.state = .failed ∨ r.state = .of r.unread r.pager.more ∧ r.schema.Divides r.unread

/-- The records that a stream has still to give, and the fault behind them. -/
def remaining (r : RecordStream) (s : Session Script) : List (Except Fault Record) :=
  if r.state = .failed then []
  else
    let later := ahead r.schema.refusal s.state.exhausted r.pager.more s.state.replies
    later.items (r.schema.views (r.unread ++ later.data))

variable {r r₁ : RecordStream} {s s₁ : Session Script}

theorem remaining_failed (h : r.state = .failed) (s : Session Script) : r.remaining s = [] := by
  rw [remaining, if_pos h]

theorem remaining_of (h : r.state = .of r.unread r.pager.more) (s : Session Script) :
    r.remaining s =
      let later := ahead r.schema.refusal s.state.exhausted r.pager.more s.state.replies
      later.items (r.schema.views (r.unread ++ later.data)) := by
  rw [remaining, if_neg (h ▸ StreamState.of_ne_failed _ _)]

/-- A round that does not end a pull takes nothing away from what a stream has to give. -/
theorem Round.remaining_eq (h : r.Settled) (hround : Round r s none r₁ s₁) :
    r₁.schema = r.schema ∧ r₁.Settled ∧ r₁.remaining s₁ = r.remaining s := by
  cases hround with
  | @taken page _ hstate hfetch hrefusal =>
    obtain ⟨hof, -⟩ := h.resolve_left (by simp [hstate])
    obtain ⟨hunread, hmore⟩ := StreamState.of_eq_pageRead_iff.mp (hof.symm.trans hstate)
    refine ⟨rfl, .inr ⟨rfl, Schema.divides_of_refusal hrefusal⟩, ?_⟩
    rw [remaining_of hof, remaining_of rfl, hunread, hmore,
      Pager.ahead_of_fetch_ok _ hfetch, hrefusal]
    rfl

/-- What the answer that ends a pull says about what a stream has to give before the pull and
after it. -/
def Gives (schema : Schema) (answer : Except Fault (Option Bytes))
    (before after : List (Except Fault Record)) : Prop :=
  match answer with
  | .ok none => before = [] ∧ after = []
  | .ok (some data) =>
    ∃ hsize : data.length = schema.recordSize,
      before = .ok ⟨schema, data, hsize, true, none⟩ :: after
  | .error fault => before = [.error fault] ∧ after = []

/-- A settled stream that has data has a whole record to read. -/
theorem Settled.recordSize_le (h : r.Settled) (hstate : r.state = .hasData) :
    r.schema.recordSize ≤ r.unread.length := by
  obtain ⟨hof, hdiv⟩ := h.resolve_left (by simp [hstate])
  exact (Schema.divides_drop hdiv (StreamState.of_eq_hasData_iff.mp (hof.symm.trans hstate))).1

theorem Round.gives {answer : Except Fault (Option Bytes)} (h : r.Settled)
    (hround : Round r s (some answer) r₁ s₁) :
    r₁.schema = r.schema ∧ r₁.Settled ∧
      Gives r.schema answer (r.remaining s) (r₁.remaining s₁) := by
  cases hround with
  | ended hstate =>
    refine ⟨rfl, h, ?_⟩
    have hnothing : r.remaining s = [] := by
      rcases h with hfailed | ⟨hof, -⟩
      · exact remaining_failed hfailed s
      · have hdone : r.state = .done :=
          hstate.resolve_right (hof ▸ StreamState.of_ne_failed _ _)
        obtain ⟨hunread, hmore⟩ := StreamState.of_eq_done_iff.mp (hof.symm.trans hdone)
        rw [remaining_of hof, hunread, hmore]
        simp [ahead, Delivery.items, Schema.views, Schema.viewAll_nil, Except.toOption]
    exact ⟨hnothing, hnothing⟩
  | record hstate =>
    have hle := h.recordSize_le hstate
    obtain ⟨hof, hdiv⟩ := h.resolve_left (by simp [hstate])
    have hunread := StreamState.of_eq_hasData_iff.mp (hof.symm.trans hstate)
    obtain ⟨-, hdrop⟩ := Schema.divides_drop hdiv hunread
    have hsize : (r.unread.take r.schema.recordSize).length = r.schema.recordSize :=
      List.length_take_of_le hle
    refine ⟨rfl, .inr ⟨rfl, hdrop⟩, hsize, ?_⟩
    have hrest := Schema.divides_append hdrop
      (r.schema.divides_ahead s.state.exhausted r.pager.more s.state.replies)
    have hviews := Schema.views_append hsize hrest
    rw [← List.append_assoc, List.take_append_drop] at hviews
    rw [remaining_of hof, remaining_of rfl]
    dsimp only
    rw [hviews]
    rfl
  | @unfetched fault _ hstate hfetch =>
    obtain ⟨hof, -⟩ := h.resolve_left (by simp [hstate])
    obtain ⟨hunread, hmore⟩ := StreamState.of_eq_pageRead_iff.mp (hof.symm.trans hstate)
    refine ⟨rfl, .inl rfl, ?_, remaining_failed rfl _⟩
    rw [remaining_of hof, hunread, hmore, Pager.ahead_of_fetch_error _ hfetch]
    simp [Delivery.items, Schema.views, Schema.viewAll_nil, Except.toOption]
  | @refused page fault _ hstate hfetch hrefusal =>
    obtain ⟨hof, -⟩ := h.resolve_left (by simp [hstate])
    obtain ⟨hunread, hmore⟩ := StreamState.of_eq_pageRead_iff.mp (hof.symm.trans hstate)
    refine ⟨rfl, .inl rfl, ?_, remaining_failed rfl _⟩
    rw [remaining_of hof, hunread, hmore, Pager.ahead_of_fetch_ok _ hfetch, hrefusal]
    simp [Delivery.items, Schema.views, Schema.viewAll_nil, Except.toOption]

/-- Rounds without an answer keep what a stream has to give. -/
theorem remaining_of_rounds (h : r.Settled) (hrounds : Rounds Round r s r₁ s₁) :
    r₁.schema = r.schema ∧ r₁.Settled ∧ r₁.remaining s₁ = r.remaining s := by
  apply hrounds.invariant
    (P := fun q t => q.schema = r.schema ∧ q.Settled ∧ q.remaining t = r.remaining s)
  · rintro q t q₁ t₁ ⟨hschema, hsettled, hsame⟩ hround
    obtain ⟨hschema₁, hsettled₁, hsame₁⟩ := hround.remaining_eq hsettled
    exact ⟨hschema₁.trans hschema, hsettled₁, hsame₁.trans hsame⟩
  · exact ⟨rfl, h, rfl⟩

theorem pull_gives (h : r.Settled) :
    (r.pull s).2.1.schema = r.schema ∧ (r.pull s).2.1.Settled ∧
      Gives r.schema (r.pull s).1 (r.remaining s)
        ((r.pull s).2.1.remaining (r.pull s).2.2) := by
  obtain ⟨r₁, s₁, hrounds, hend⟩ := pull_endsWith r s
  obtain ⟨hschema, hsettled, hsame⟩ := remaining_of_rounds h hrounds
  obtain ⟨hschema₂, hsettled₂, hgives⟩ := hend.gives hsettled
  rw [hschema, hsame] at hgives
  exact ⟨hschema₂.trans hschema, hsettled₂, hgives⟩

/-- A pull gives out the first record that remains, and the others remain. -/
theorem ask_remaining (h : r.Settled) (p : Pull) :
    (ask p r s).1 = reply p (r.remaining s).head? ∧
      (ask p r s).2.1.remaining (ask p r s).2.2 = (r.remaining s).tail ∧
      (ask p r s).2.1.schema = r.schema ∧ (ask p r s).2.1.Settled := by
  have hpull := pull_gives (s := s) h
  rcases heq : r.pull s with ⟨fault | _ | data, r₁, s₁⟩
  · rw [heq] at hpull
    obtain ⟨hschema, hsettled, hbefore, hafter⟩ := hpull
    rw [hbefore]
    cases p <;> simp only [ask, next, heq] <;> exact ⟨rfl, hafter, hschema, hsettled⟩
  · rw [heq] at hpull
    obtain ⟨hschema, hsettled, hbefore, hafter⟩ := hpull
    rw [hbefore]
    cases p <;> simp only [ask, next, heq] <;> exact ⟨rfl, hafter, hschema, hsettled⟩
  · rw [heq] at hpull
    obtain ⟨hschema, hsettled, hsize, hbefore⟩ := hpull
    have hview (isView : Bool) : r₁.schema.record data isView =
        .ok ⟨r.schema, data, hsize, isView, none⟩ := by
      rw [show r₁.schema = r.schema from hschema]
      exact Schema.view_eq hsize isView
    rw [hbefore]
    cases p <;> simp only [ask, next, heq, hview] <;> exact ⟨rfl, rfl, hschema, hsettled⟩

/-- A stream of records starts exactly when the first page holds whole records. Its pulls then
answer with the records of all pages put together, and behind them with the fault that kept the
next page away; and whenever a record is cut out of a page, the page holds it. -/
theorem pulls_eq_records (log : Int64) (schema : Schema) (first : Page) (script : Script) :
    match start log schema first with
    | .error fault =>
      first.data.length % schema.recordSize ≠ 0 ∧
        fault = .decoding (.pageSize first.data.length schema.recordSize)
    | .ok r =>
      first.data.length % schema.recordSize = 0 ∧
        ∃ records, schema.viewAll (script.deliver schema.refusal first).data = .ok records ∧
          ∀ asked,
            (pulls ask asked r script.opening).1 = (asked.mapIdx fun i p =>
              reply p ((script.deliver schema.refusal first).items records)[i]?) ∧
            ∀ r₁ s₁, Rounds Round (pulls ask asked r script.opening).2.1
                (pulls ask asked r script.opening).2.2 r₁ s₁ →
              r₁.state = .hasData → schema.recordSize ≤ r₁.unread.length := by
  by_cases hdiv : schema.Divides first.data
  · have hstart : start log schema first =
        .ok ⟨schema, .start log first, first.data, .of first.data first.more⟩ := by
      simp [start, checkPage, hdiv, Except.map]
    rw [hstart]
    have hall : schema.Divides (script.deliver schema.refusal first).data :=
      Schema.divides_append hdiv (schema.divides_ahead _ _ _)
    refine ⟨hdiv, _, Schema.viewAll_eq_views hall, fun asked => ?_⟩
    generalize hr : (⟨schema, .start log first, first.data, .of first.data first.more⟩ :
      RecordStream) = r
    have hremaining : r.remaining script.opening = (script.deliver schema.refusal first).items
        (schema.views (script.deliver schema.refusal first).data) := by
      subst hr
      exact remaining_of rfl _
    have hsettled : r.schema = schema ∧ r.Settled := by
      subst hr
      exact ⟨rfl, .inr ⟨rfl, hdiv⟩⟩
    rw [← hremaining]
    obtain ⟨hreplies, hschema, hlast⟩ := pulls_answer
      (P := fun q (_ : Session Script) => q.schema = schema ∧ q.Settled) reply
      (fun p q t hq => by
        obtain ⟨hanswer, htail, hschema, hsettled⟩ := ask_remaining (s := t) hq.2 p
        exact ⟨(ask p q t).2.1, (ask p q t).2.2, Prod.ext hanswer rfl, htail,
          hschema.trans hq.1, hsettled⟩) asked r script.opening hsettled
    refine ⟨hreplies, fun r₁ s₁ hrounds hstate => ?_⟩
    obtain ⟨hschema₁, hsettled₁, -⟩ := remaining_of_rounds hlast hrounds
    rw [← hschema, ← hschema₁]
    exact hsettled₁.recordSize_le hstate
  · have hstart : start log schema first =
        .error (.decoding (.pageSize first.data.length schema.recordSize)) := by
      simp [start, checkPage, hdiv, Except.map]
    rw [hstart]
    exact ⟨hdiv, rfl⟩

end RecordStream

end RecordLog
