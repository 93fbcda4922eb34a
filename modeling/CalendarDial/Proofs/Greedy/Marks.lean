import CalendarDial.Greedy
import CalendarDial.Proofs.Violation

/-!
# The marks of a board

A level is covered when it lies in the band of a placed event that overlaps the newcomer. The marks
are set one level at a time, in any order and some of them more than once; afterwards the covered
levels up to the top are marked, and so is the level past the top. As long as no band reaches above
the top, every level that is marked on the way has its mark.
-/

namespace CalendarDial.Greedy

/-- Some placed event that overlaps `event` covers `level`. -/
def Covered (placed : List LeveledEvent) (event : ClippedEvent) (level : Nat) : Prop :=
  ∃ previous ∈ placed, Overlaps previous event ∧
    previous.minLevel ≤ level ∧ level ≤ previous.maxLevel

instance (placed : List LeveledEvent) (event : ClippedEvent) (level : Nat) :
    Decidable (Covered placed event level) :=
  inferInstanceAs (Decidable (∃ _ ∈ _, _))

/-- The taken levels are the covered ones and the level past the top. Those of a band are the levels
between its ends, and only the bands of events that overlap the newcomer are gone through. -/
theorem mem_takenLevels_iff (board : Board) (event : ClippedEvent) (level : Nat) :
    level ∈ takenLevels board event ↔
      Covered board.placed event level ∨ level = board.top + 1 := by
  simp only [takenLevels, List.mem_append, List.mem_flatMap, List.mem_filter, decide_eq_true_eq,
    List.mem_singleton, LeveledEvent.mem_levels_iff, LeveledEvent.Covers, Covered, and_assoc]

/-- If no band reaches above the top, no taken level is above the level past it. A covered level
lies in a band, and the remaining one is the level past the top itself. -/
theorem le_of_mem_takenLevels (board : Board) (event : ClippedEvent)
    (bounded : ∀ band ∈ board.placed, band.maxLevel ≤ board.top) :
    ∀ level ∈ takenLevels board event, level ≤ board.top + 1 := by
  intro level taken
  rcases (mem_takenLevels_iff board event level).mp taken with covered | past
  · obtain ⟨band, present, -, -, upper⟩ := covered
    have within := bounded band present
    omega
  · exact Nat.le_of_eq past

/-- Setting marks adds none and removes none. So the number of marks is the one that the search
begins with. -/
theorem length_markAll (marks : List Bool) (levels : List Nat) :
    (markAll marks levels).length = marks.length := by
  induction levels generalizing marks with
  | nil => rfl
  | cons first rest inductionHypothesis =>
    exact (inductionHypothesis (marks.set first true)).trans List.length_set

/-- A mark is set afterwards if its level is among those to be marked, and else is what it was. By
induction on the levels: the first of them sets its own mark and leaves the others alone, and no
later one takes a mark back. -/
theorem getElem?_markAll (marks : List Bool) (levels : List Nat) (level : Nat)
    (stored : level < marks.length) :
    (markAll marks levels)[level]? = if level ∈ levels then some true else marks[level]? := by
  induction levels generalizing marks with
  | nil => rfl
  | cons first rest inductionHypothesis =>
    have still : level < (marks.set first true).length := by rwa [List.length_set]
    calc (markAll marks (first :: rest))[level]?
        = (markAll (marks.set first true) rest)[level]? := rfl
      _ = if level ∈ rest then some true else (marks.set first true)[level]? :=
        inductionHypothesis _ still
      _ = if level ∈ first :: rest then some true else marks[level]? := by
        by_cases same : first = level
        · subst same
          simp [stored]
        · simp [List.getElem?_set_ne same, Ne.symm same]

/-- There is one mark for each level up to the top and one more. They are made blank in this number,
and marking keeps it. -/
theorem length_forbiddenLevels (board : Board) (event : ClippedEvent) :
    (forbiddenLevels board event).length = board.top + 2 := by
  rw [forbiddenLevels, length_markAll, List.length_replicate]

/-- Of the levels that have a mark, those that are taken are marked. Before the first of them is
set, each of these marks is there and blank. -/
theorem getElem?_forbiddenLevels_of_le (board : Board) (event : ClippedEvent) (level : Nat)
    (stored : level ≤ board.top + 1) :
    (forbiddenLevels board event)[level]? = some (decide (level ∈ takenLevels board event)) := by
  have blank : (List.replicate (board.top + 2) false)[level]? = some false :=
    List.getElem?_replicate_of_lt (Nat.lt_succ_of_le stored)
  rw [forbiddenLevels, getElem?_markAll _ _ level (List.getElem?_eq_some_iff.mp blank).1, blank]
  by_cases taken : level ∈ takenLevels board event <;> simp [taken]

/-- The marks of a board: one for each level up to the top, and one past it that is always set. A
taken level up to the top is a covered one, the level past the top is always taken, and there is no
mark beyond it. -/
theorem getElem?_forbiddenLevels (board : Board) (event : ClippedEvent) (level : Nat) :
    (forbiddenLevels board event)[level]? =
      if level ≤ board.top then some (decide (Covered board.placed event level))
      else if level = board.top + 1 then some true else none := by
  split
  · next within =>
    have lower : level ≠ board.top + 1 := by omega
    rw [getElem?_forbiddenLevels_of_le board event level (by omega)]
    simp only [mem_takenLevels_iff, lower, or_false]
  · next beyond =>
    split
    · next last =>
      rw [getElem?_forbiddenLevels_of_le board event level (by omega)]
      simp only [mem_takenLevels_iff, last, or_true, decide_true]
    · next outside =>
      exact List.getElem?_eq_none (by rw [length_forbiddenLevels]; omega)

/-- Whether a level is left unmarked. The mark past the top is set, so an unset one belongs to a
level up to the top that is not covered. -/
theorem forbiddenLevels_unset_iff (board : Board) (event : ClippedEvent) (level : Nat) :
    (forbiddenLevels board event)[level]? = some false ↔
      level ≤ board.top ∧ ¬ Covered board.placed event level := by
  rw [getElem?_forbiddenLevels]
  split
  · next within => simp [within]
  · next beyond =>
    split <;> simp [beyond]

/-- Whether a level that has a mark is marked. A set mark says that the level is taken, either by a
band or as the one past the top. -/
theorem forbiddenLevels_set_iff (board : Board) (event : ClippedEvent) (level : Nat)
    (stored : level ≤ board.top + 1) :
    (forbiddenLevels board event)[level]? = some true ↔
      level = board.top + 1 ∨ Covered board.placed event level := by
  rw [getElem?_forbiddenLevels_of_le board event level stored, Option.some.injEq,
    decide_eq_true_iff, mem_takenLevels_iff, or_comm]

end CalendarDial.Greedy
