import RecordLog.Proofs.Stream.Script

/-!
# The rounds of the two kinds of streams

For each kind of stream, what one round of a pull may do is listed once, and every pull is shown
to go through such rounds. Statements about pulls are proved from these lists alone.
-/

namespace RecordLog

variable {σ : Type} [Service σ]

/-- The fault that a page meets which does not hold a whole number of records. -/
def Schema.refusal (s : Schema) (page : Bytes) : Option Fault :=
  if s.Divides page then none else some (.decoding (.pageSize page.length s.recordSize))

namespace RecordStream

/-- A round of a stream of records. -/
inductive Round (r : RecordStream) (s : Session σ) :
    Option (Except Fault (Option Bytes)) → RecordStream → Session σ → Prop where
  | ended (hstate : r.state = .done ∨ r.state = .failed) : Round r s (some (.ok none)) r s
  | record (hstate : r.state = .hasData) :
      Round r s (some (.ok (some (r.unread.take r.schema.recordSize))))
        { r with unread := r.unread.drop r.schema.recordSize,
                 state := .of (r.unread.drop r.schema.recordSize) r.pager.more } s
  | unfetched {fault : Fault} {t : Session σ} (hstate : r.state = .pageRead)
      (hfetch : r.pager.fetch s = (.error fault, t)) :
      Round r s (some (.error fault)) { r with state := .failed } t
  /-- The page that comes is refused. -/
  | refused {page : Page} {fault : Fault} {t : Session σ} (hstate : r.state = .pageRead)
      (hfetch : r.pager.fetch s = (.ok page, t))
      (hrefusal : r.schema.refusal page.data = some fault) :
      Round r s (some (.error fault)) { r with pager := r.pager.turn page, state := .failed } t
  /-- The page that comes takes the place of the one that was read. -/
  | taken {page : Page} {t : Session σ} (hstate : r.state = .pageRead)
      (hfetch : r.pager.fetch s = (.ok page, t))
      (hrefusal : r.schema.refusal page.data = none) :
      Round r s none
        { r with pager := r.pager.turn page, unread := page.data,
                 state := .of page.data page.more } t

theorem turn_eq (r : RecordStream) (page : Page) :
    r.turn page =
      match r.schema.refusal page.data with
      | some fault => (.error fault, { r with pager := r.pager.turn page, state := .failed })
      | none =>
        (.ok (), { r with pager := r.pager.turn page, unread := page.data,
                          state := .of page.data page.more }) := by
  by_cases hdiv : r.schema.Divides page.data <;>
    simp [turn, checkPage, Schema.refusal, hdiv]

theorem pull_of_pageRead {r : RecordStream} (hstate : r.state = .pageRead) (s : Session σ) :
    r.pull s =
      match r.pager.fetch s with
      | (.error fault, t) => (.error fault, { r with state := .failed }, t)
      | (.ok page, t) =>
        match r.turn page with
        | (.error fault, r) => (.error fault, r, t)
        | (.ok _, r) => r.pull t := by
  rw [pull, hstate]
  dsimp only
  split
  · next hfetch => rw [hfetch]
  · next page t hfetch =>
    rcases hturn : r.turn page with ⟨fault | _, r₁⟩ <;> simp only [hfetch, hturn]

/-- A pull on a stream of records goes through rounds. -/
theorem pull_endsWith (r : RecordStream) (s : Session σ) : EndsWith Round r s (r.pull s) := by
  induction r, s using pull.induct with
  | case1 r s hstate =>
    rw [pull, hstate]
    exact ⟨r, s, .entry, .ended (.inl hstate)⟩
  | case2 r s hstate =>
    rw [pull, hstate]
    exact ⟨r, s, .entry, .ended (.inr hstate)⟩
  | case3 r s hstate record r₁ hcut =>
    rw [pull, hstate]
    exact ⟨r, s, .entry, .record hstate⟩
  | case4 r s hstate fault t hfetch =>
    rw [pull_of_pageRead hstate, hfetch]
    exact ⟨r, s, .entry, .unfetched hstate hfetch⟩
  | case5 r s hstate page t hfetch fault r₁ hturn =>
    rw [pull_of_pageRead hstate, hfetch]
    dsimp only
    rw [turn_eq] at hturn ⊢
    cases hrefusal : r.schema.refusal page.data with
    | none => simp [hrefusal] at hturn
    | some cause => exact ⟨r, s, .entry, .refused hstate hfetch hrefusal⟩
  | case6 r s hstate page t hfetch a r₁ hturn ih =>
    rw [pull_of_pageRead hstate, hfetch]
    dsimp only
    rw [hturn]
    rw [turn_eq] at hturn
    cases hrefusal : r.schema.refusal page.data with
    | some cause => simp [hrefusal] at hturn
    | none =>
      simp only [hrefusal, Prod.mk.injEq] at hturn
      obtain ⟨-, rfl⟩ := hturn
      exact ih.after (.taken hstate hfetch hrefusal)

end RecordStream

namespace AlertStream

/-- A round of a stream of alerts. -/
inductive Round (a : AlertStream) (s : Session σ) :
    Option (Except Fault (Option Bytes)) → AlertStream → Session σ → Prop where
  | ended (hstate : a.state.isOpen = false) : Round a s (some (.ok none)) a s
  | blank {rest : Bytes} (hstate : a.state.isOpen = true)
      (hcut : cutLine? a.unread = some ([], rest)) :
      Round a s none { a with unread := rest, state := .of rest a.pager.more } s
  | line {line rest : Bytes} (hstate : a.state.isOpen = true)
      (hcut : cutLine? a.unread = some (line, rest)) (hline : line ≠ []) :
      Round a s (some (.ok (some line)))
        { a with unread := rest, state := .of rest a.pager.more } s
  | unfetched {fault : Fault} {t : Session σ} (hstate : a.state.isOpen = true)
      (hcut : cutLine? a.unread = none) (hmore : a.pager.more = true)
      (hfetch : a.pager.fetch s = (.error fault, t)) :
      Round a s (some (.error fault)) { a with state := .failed } t
  /-- The page that comes is put behind what is unread. -/
  | taken {page : Page} {t : Session σ} (hstate : a.state.isOpen = true)
      (hcut : cutLine? a.unread = none) (hmore : a.pager.more = true)
      (hfetch : a.pager.fetch s = (.ok page, t)) :
      Round a s none
        { a with pager := a.pager.turn page, unread := a.unread ++ page.data,
                 state := .of (a.unread ++ page.data) page.more } t
  /-- What is left behind the last page is given out. -/
  | tail (hstate : a.state.isOpen = true) (hcut : cutLine? a.unread = none)
      (hmore : a.pager.more = false) :
      Round a s (some (.ok (some a.unread)))
        { a with unread := [], state := .of [] a.pager.more } s

theorem pull_of_isOpen {a : AlertStream} (hstate : a.state.isOpen = true) (s : Session σ) :
    a.pull s =
      match cutLine? a.unread with
      | some (line, rest) =>
        if line = [] then (a.leave rest).pull s else (.ok (some line), a.leave rest, s)
      | none =>
        if a.pager.more then
          match a.pager.fetch s with
          | (.error fault, t) => (.error fault, { a with state := .failed }, t)
          | (.ok page, t) => (a.turn page).pull t
        else (.ok (some a.unread), a.leave [], s) := by
  rw [pull]
  cases hopen : a.state <;> simp only [hopen, StreamState.isOpen, Bool.false_eq_true] at hstate
  all_goals
    dsimp only
    split
    · simp_all
    · simp only [*]
      split
      · split <;> simp_all
      · rfl

/-- A pull on a stream of alerts goes through rounds. -/
theorem pull_endsWith (a : AlertStream) (s : Session σ) : EndsWith Round a s (a.pull s) := by
  induction a, s using pull.induct with
  | case1 a s hstate | case2 a s hstate =>
    rw [pull, hstate]
    exact ⟨a, s, .entry, .ended (by simp [hstate, StreamState.isOpen])⟩
  | case3 a s hstate rest hcut ih | case8 a s hstate rest hcut ih =>
    have hopen : a.state.isOpen = true := by simp [hstate, StreamState.isOpen]
    rw [pull_of_isOpen hopen, hcut]
    exact ih.after (.blank hopen hcut)
  | case4 a s hstate line rest hcut hline | case9 a s hstate line rest hcut hline =>
    have hopen : a.state.isOpen = true := by simp [hstate, StreamState.isOpen]
    rw [pull_of_isOpen hopen, hcut]
    simp only [hline, if_false]
    exact ⟨a, s, .entry, .line hopen hcut hline⟩
  | case5 a s hstate hcut hmore fault t hfetch | case10 a s hstate hcut hmore fault t hfetch =>
    have hopen : a.state.isOpen = true := by simp [hstate, StreamState.isOpen]
    rw [pull_of_isOpen hopen, hcut]
    simp only [hmore, if_true, hfetch]
    exact ⟨a, s, .entry, .unfetched hopen hcut hmore hfetch⟩
  | case6 a s hstate hcut hmore page t hfetch ih | case11 a s hstate hcut hmore page t hfetch ih =>
    have hopen : a.state.isOpen = true := by simp [hstate, StreamState.isOpen]
    rw [pull_of_isOpen hopen, hcut]
    simp only [hmore, if_true, hfetch]
    exact ih.after (.taken hopen hcut hmore hfetch)
  | case7 a s hstate hcut hmore | case12 a s hstate hcut hmore =>
    have hopen : a.state.isOpen = true := by simp [hstate, StreamState.isOpen]
    rw [pull_of_isOpen hopen, hcut]
    dsimp only
    rw [if_neg hmore]
    exact ⟨a, s, .entry, .tail hopen hcut (Bool.eq_false_iff.mpr hmore)⟩

end AlertStream

end RecordLog
