import CalendarDial.Proofs.Greedy.Marks

/-!
# The search for a hole

The search finds the first run of unset marks, in full length, and it finds one whenever there is an
unset mark. Read on the marks of a board, the run is a hole: the levels in it are covered by no
placed event that overlaps the newcomer, all levels below it are, and so is the level just above it
unless that would be a new one.
-/

namespace CalendarDial.Greedy

/-- The positions from `lo` to `hi` hold the first run of unset marks, in full length. -/
structure FirstRun (marks : List Bool) (lo hi : Nat) : Prop where
  ordered : lo ≤ hi
  below : ∀ l < lo, marks[l]? = some true
  inside : ∀ l, lo ≤ l → l ≤ hi → marks[l]? = some false
  past : marks[hi + 1]? ≠ some false

/-- There is only one such run. Each run starts at an unset mark before which all are set, so
neither can start before the other; and each is followed by no unset mark, so with the same start
neither can be longer. -/
theorem FirstRun.unique (marks : List Bool) (lo hi lo' hi' : Nat) (first : FirstRun marks lo hi)
    (second : FirstRun marks lo' hi') : lo = lo' ∧ hi = hi' := by
  have start (a b c d : Nat) (one : FirstRun marks a b) (other : FirstRun marks c d) : c ≤ a := by
    apply Nat.le_of_not_lt
    intro earlier
    have unset := one.inside a (Nat.le_refl a) one.ordered
    have set := other.below a (by omega)
    simp [unset] at set
  have same : lo = lo' :=
    Nat.le_antisymm (start lo' hi' lo hi second first) (start lo hi lo' hi' first second)
  have finish (a b c d : Nat) (one : FirstRun marks a b) (other : FirstRun marks c d)
      (together : a = c) : b ≤ d := by
    apply Nat.le_of_not_lt
    intro later
    have order := other.ordered
    exact other.past (one.inside (d + 1) (by omega) (by omega))
  exact ⟨same, Nat.le_antisymm (finish lo hi lo' hi' first second same)
    (finish lo' hi' lo hi second first same.symm)⟩

/-- A set mark in front moves the run by one. Its own position is below the run, and every other
position is one more than before. -/
theorem FirstRun.cons_true (marks : List Bool) (lo hi : Nat) (run : FirstRun marks lo hi) :
    FirstRun (true :: marks) (lo + 1) (hi + 1) := by
  refine ⟨Nat.succ_le_succ run.ordered, fun l lower => ?_, fun l lower upper => ?_, run.past⟩
  · cases l with
    | zero => rfl
    | succ l => exact run.below l (by omega)
  · cases l with
    | zero => omega
    | succ l => exact run.inside l (by omega) (by omega)

/-- The leading unset marks are unset, and the mark after them, if there is one, is not. By
induction on the marks: a set one in front ends the leading ones at once, and an unset one moves
every position by one. -/
theorem getElem?_takeWhile_unset (marks : List Bool) :
    (∀ l < (marks.takeWhile (!·)).length, marks[l]? = some false) ∧
      marks[(marks.takeWhile (!·)).length]? ≠ some false := by
  induction marks with
  | nil => exact ⟨nofun, nofun⟩
  | cons mark marks inductionHypothesis =>
    cases mark with
    | true => exact ⟨nofun, nofun⟩
    | false =>
      obtain ⟨unset, past⟩ := inductionHypothesis
      refine ⟨fun l bound => ?_, past⟩
      cases l with
      | zero => rfl
      | succ l => exact unset l (Nat.lt_of_succ_lt_succ bound)

/-- The search passes over a set mark in front. The width of the run is not zero, so that nothing is
lost when one is taken from it. Both the start and the end of the run are counted from the front,
hence the ones that are added. -/
theorem findHole_cons_true (marks : List Bool) :
    findHole (true :: marks) = (findHole marks).map fun (lo, hi) => (lo + 1, hi + 1) := by
  simp only [findHole, List.findIdx?_cons, Bool.not_true, Bool.false_eq_true, ↓reduceIte]
  cases found : marks.findIdx? (!·) with
  | none => rfl
  | some start =>
    obtain ⟨bound, unset, -⟩ := List.findIdx?_eq_some_iff_getElem.mp found
    have wide : 0 < ((marks.drop start).takeWhile (!·)).length := by
      rw [List.drop_eq_getElem_cons bound, List.takeWhile_cons_of_pos unset]
      exact Nat.succ_pos _
    have last : start + 1 + ((marks.drop start).takeWhile (!·)).length - 1 =
        start + ((marks.drop start).takeWhile (!·)).length - 1 + 1 := by omega
    exact congrArg (fun hi => some (start + 1, hi)) last

/-- The search stops at an unset mark in front, and the run goes on over the unset marks after it.
Its last position is the number of unset marks that follow the first. -/
theorem findHole_cons_false (marks : List Bool) :
    findHole (false :: marks) = some (0, (marks.takeWhile (!·)).length) := by
  simp [findHole, List.findIdx?_cons]

/-- What the search finds is the first run of unset marks. By induction on the marks. A set mark in
front moves the run by one, and an unset mark in front starts it, so that nothing is left to be
shown below. -/
theorem firstRun_of_findHole (marks : List Bool) (lo hi : Nat)
    (found : findHole marks = some (lo, hi)) : FirstRun marks lo hi := by
  induction marks generalizing lo hi with
  | nil => cases found
  | cons mark marks inductionHypothesis =>
    cases mark with
    | true =>
      rw [findHole_cons_true] at found
      obtain ⟨⟨lower, upper⟩, run, shifted⟩ := Option.map_eq_some_iff.mp found
      cases shifted
      exact (inductionHypothesis lower upper run).cons_true
    | false =>
      rw [findHole_cons_false] at found
      cases found
      obtain ⟨unset, past⟩ := getElem?_takeWhile_unset marks
      refine ⟨Nat.zero_le _, nofun, fun l _ upper => ?_, past⟩
      cases l with
      | zero => rfl
      | succ l => exact unset l upper

/-- The search fails exactly when all marks are set. By induction on the marks, for an unset one in
front is found and a set one is passed over. -/
theorem findHole_eq_none_iff (marks : List Bool) :
    findHole marks = none ↔ ∀ l : Nat, marks[l]? ≠ some false := by
  induction marks with
  | nil => exact ⟨fun _ => nofun, fun _ => rfl⟩
  | cons mark marks inductionHypothesis =>
    cases mark with
    | true =>
      rw [findHole_cons_true, Option.map_eq_none_iff, inductionHypothesis]
      constructor
      · rintro set (_ | l)
        · exact nofun
        · exact set l
      · intro set l
        exact set (l + 1)
    | false =>
      rw [findHole_cons_false]
      exact ⟨nofun, fun set => absurd rfl (set 0)⟩

/-- The search succeeds exactly when there is an unset mark. A run that is found has an unset mark
at its start, and the search fails only when there is none. -/
theorem exists_findHole_iff (marks : List Bool) :
    (∃ lo hi, findHole marks = some (lo, hi)) ↔ ∃ l : Nat, marks[l]? = some false := by
  constructor
  · rintro ⟨lo, hi, found⟩
    have run := firstRun_of_findHole marks lo hi found
    exact ⟨lo, run.inside lo (Nat.le_refl lo) run.ordered⟩
  · rintro ⟨l, unset⟩
    cases found : findHole marks with
    | none => exact absurd unset ((findHole_eq_none_iff marks).mp found l)
    | some hole => exact ⟨hole.1, hole.2, rfl⟩

/-- The search finds exactly the first run of unset marks. The search succeeds where there is a run,
since its marks are unset, and what it finds is a first run too, of which there is only one. -/
theorem findHole_eq_some_iff (marks : List Bool) (lo hi : Nat) :
    findHole marks = some (lo, hi) ↔ FirstRun marks lo hi := by
  constructor
  · exact firstRun_of_findHole marks lo hi
  · intro run
    cases found : findHole marks with
    | none =>
      have unset := run.inside lo (Nat.le_refl lo) run.ordered
      exact absurd unset ((findHole_eq_none_iff marks).mp found lo)
    | some other =>
      obtain ⟨rfl, rfl⟩ := run.unique marks lo hi _ _ (firstRun_of_findHole marks _ _ found)
      rfl

/-- What the levels of a hole have in common: none is covered, every level below the hole is, and
the hole ends at the top or below a covered level. -/
structure Hole (board : Board) (event : ClippedEvent) (lo hi : Nat) : Prop where
  ordered : lo ≤ hi
  within : hi ≤ board.top
  below : ∀ level < lo, Covered board.placed event level
  free : ∀ level, lo ≤ level → level ≤ hi → ¬ Covered board.placed event level
  full : hi = board.top ∨ Covered board.placed event (hi + 1)

/-- The search finds holes only. Its run is read on the marks of the board: unset ones are free
levels up to the top, set ones below are covered, because the mark past the top is not among them,
and the mark after the run shows that it cannot be longer. -/
theorem hole_of_findHole (board : Board) (event : ClippedEvent) (lo hi : Nat)
    (found : findHole (forbiddenLevels board event) = some (lo, hi)) : Hole board event lo hi := by
  have run := firstRun_of_findHole _ lo hi found
  have unset (level : Nat) (lower : lo ≤ level) (upper : level ≤ hi) :=
    (forbiddenLevels_unset_iff board event level).mp (run.inside level lower upper)
  have within : hi ≤ board.top := (unset hi run.ordered (Nat.le_refl hi)).1
  refine ⟨run.ordered, within, fun level lower => ?_, fun level lower upper =>
    (unset level lower upper).2, ?_⟩
  · have order := run.ordered
    have marked := (forbiddenLevels_set_iff board event level (by omega)).mp (run.below level lower)
    exact marked.resolve_left (by omega)
  · have past := mt (forbiddenLevels_unset_iff board event (hi + 1)).mpr run.past
    by_cases covered : Covered board.placed event (hi + 1)
    · exact .inr covered
    · have above : ¬ hi + 1 ≤ board.top := fun lower => past ⟨lower, covered⟩
      exact .inl (by omega)

/-- The level after a hole is marked: it is covered, or it is the one past the top. So a hole is
followed by a set mark, and the search for its end never runs past the marks. -/
theorem marked_past_hole (board : Board) (event : ClippedEvent) (lo hi : Nat)
    (hole : Hole board event lo hi) : (forbiddenLevels board event)[hi + 1]? = some true :=
  (forbiddenLevels_set_iff board event (hi + 1) (Nat.succ_le_succ hole.within)).mpr
    (hole.full.imp_left (congrArg (· + 1)))

/-- Where no hole is found, every level up to the top is covered. A level that is not covered would
have left its mark unset, and the search fails only when no mark is unset. -/
theorem covered_of_findHole_eq_none (board : Board) (event : ClippedEvent)
    (none : findHole (forbiddenLevels board event) = none) :
    ∀ level ≤ board.top, Covered board.placed event level := by
  intro level within
  apply Decidable.byContradiction
  intro free
  exact (findHole_eq_none_iff _).mp none level
    ((forbiddenLevels_unset_iff board event level).mpr ⟨within, free⟩)

end CalendarDial.Greedy
