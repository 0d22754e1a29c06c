import Mathlib.Data.List.DropRight

/-!
# Runs in lists

Readers take runs of characters of one class. A run that is followed by something outside the
class is taken whole, and what is taken off the end of a list is a run as well.
-/

namespace RecordLog

variable {α : Type}

/-- A run is taken off the front as a whole, and nothing behind it. -/
theorem takeWhile_run {q : α → Bool} {run : List α} (hrun : ∀ x ∈ run, q x = true) (rest : List α)
    (hrest : rest.head?.all (!q ·) = true) :
    (run ++ rest).takeWhile q = run ∧ (run ++ rest).dropWhile q = rest := by
  rw [List.takeWhile_append_of_pos hrun, List.dropWhile_append_of_pos hrun]
  cases rest with
  | nil => simp
  | cons x rest =>
    have hx : q x = false := by simpa using hrest
    simp [hx]

/-- What is taken off the end of a list are copies of one element. -/
theorem exists_eq_append_replicate [DecidableEq α] (x : α) (s : List α) :
    ∃ count, s = (s.reverse.dropWhile (· = x)).reverse ++ List.replicate count x := by
  refine ⟨(s.rtakeWhile (· = x)).length, ?_⟩
  have hall : ∀ y ∈ s.rtakeWhile (· = x), y = x := by
    intro y hy
    simpa using List.mem_rtakeWhile_imp hy
  rw [← List.eq_replicate_of_mem hall]
  exact (List.rdropWhile_append_rtakeWhile (p := (· = x))).symm

end RecordLog
