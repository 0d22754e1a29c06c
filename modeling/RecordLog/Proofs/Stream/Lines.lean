import RecordLog.Proofs.Stream.Rounds
import RecordLog.Proofs.Text.Utf8

/-!
# The lines of all pages together

A byte string is cut into segments at its line feeds; the segments that are not empty are its
lines. The alerts of a result are the lines of the bytes of all pages put together. If a page does
not come, only the lines that are ended by a line feed are alerts, and the fault stands behind
them; and a line that is not text ends the alerts with a fault in its place.
-/

namespace RecordLog

/-- The segments between line feeds that are not empty. -/
def linesOf (data : Bytes) : List Bytes := (data.splitOn lineFeed).filter (· ≠ [])

/-- The segments with a line feed behind them that are not empty. -/
def endedLinesOf (data : Bytes) : List Bytes :=
  (data.splitOn lineFeed).dropLast.filter (· ≠ [])

/-- The texts of lines, and behind them what follows; from the first line that is not text on,
there is nothing but the fault that says so. -/
def textsOf (after : List (Except Fault String)) : List Bytes → List (Except Fault String)
  | [] => after
  | line :: rest =>
    match Text.Utf8.decode line with
    | .ok text => .ok text :: textsOf after rest
    | .error flaw => [.error (.decoding (.alert flaw))]

/-- The alerts in what the pages of a result bring. -/
def Delivery.alerts (d : Delivery) : List (Except Fault String) :=
  match d.fault with
  | none => textsOf [] (linesOf d.data)
  | some fault => textsOf [.error fault] (endedLinesOf d.data)

/-! ## Cutting lines -/

theorem cutLine?_eq_none_iff {data : Bytes} : cutLine? data = none ↔ lineFeed ∉ data := by
  induction data with
  | nil => simp [cutLine?]
  | cons b rest ih =>
    by_cases hb : b = lineFeed
    · simp [cutLine?, hb]
    · simp [cutLine?, hb, ih, Ne.symm hb]

theorem eq_of_cutLine?_eq_some {data line rest : Bytes} (h : cutLine? data = some (line, rest)) :
    data = line ++ lineFeed :: rest ∧ lineFeed ∉ line := by
  induction data generalizing line with
  | nil => simp [cutLine?] at h
  | cons b tail ih =>
    by_cases hb : b = lineFeed
    · simp only [cutLine?, hb, if_true, Option.some.injEq, Prod.mk.injEq] at h
      obtain ⟨rfl, rfl⟩ := h
      exact ⟨by simp [hb], List.not_mem_nil⟩
    · simp only [cutLine?, hb, if_false, Option.map_eq_some_iff, Prod.exists, Prod.mk.injEq] at h
      obtain ⟨line₁, rest₁, hcut, rfl, rfl⟩ := h
      obtain ⟨heq, hmem⟩ := ih hcut
      exact ⟨by rw [heq, List.cons_append], by simp [hmem, Ne.symm hb]⟩

theorem splitOn_line {line : Bytes} (hline : lineFeed ∉ line) (rest : Bytes) :
    (line ++ lineFeed :: rest).splitOn lineFeed = line :: rest.splitOn lineFeed := by
  rw [List.splitOn_eq_splitOnP, List.splitOn_eq_splitOnP]
  refine List.splitOnP_append_cons_of_forall_mem (fun b hb => ?_) _ (by simp) rest
  exact beq_false_of_ne fun heq => hline (heq ▸ hb)

theorem splitOn_of_not_mem {data : Bytes} (hdata : lineFeed ∉ data) :
    data.splitOn lineFeed = [data] := by
  rw [List.splitOn_eq_splitOnP]
  exact List.splitOnP_eq_singleton fun b hb => beq_false_of_ne fun heq => hdata (heq ▸ hb)

theorem splitOn_ne_nil (data : Bytes) : data.splitOn lineFeed ≠ [] := by
  rw [List.splitOn_eq_splitOnP]
  exact List.splitOnP_ne_nil _ _

theorem linesOf_line {line : Bytes} (hline : lineFeed ∉ line) (rest : Bytes) :
    linesOf (line ++ lineFeed :: rest) = [line].filter (· ≠ []) ++ linesOf rest := by
  rw [linesOf, splitOn_line hline, ← List.singleton_append, List.filter_append, linesOf]

theorem endedLinesOf_line {line : Bytes} (hline : lineFeed ∉ line) (rest : Bytes) :
    endedLinesOf (line ++ lineFeed :: rest) = [line].filter (· ≠ []) ++ endedLinesOf rest := by
  rw [endedLinesOf, splitOn_line hline, List.dropLast_cons_of_ne_nil (splitOn_ne_nil rest),
    ← List.singleton_append, List.filter_append, endedLinesOf]

theorem linesOf_of_not_mem {data : Bytes} (hdata : lineFeed ∉ data) :
    linesOf data = [data].filter (· ≠ []) := by
  rw [linesOf, splitOn_of_not_mem hdata]

theorem endedLinesOf_of_not_mem {data : Bytes} (hdata : lineFeed ∉ data) :
    endedLinesOf data = [] := by
  rw [endedLinesOf, splitOn_of_not_mem hdata]
  rfl

end RecordLog
