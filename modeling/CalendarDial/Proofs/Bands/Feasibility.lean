import CalendarDial.Proofs.Bands.Depth
import CalendarDial.Proofs.Bands.Solving

/-!
# When there is an even layout

An event cannot start below the depth of its position, less one. So there is no layout when an event
is so deep that nothing above it is left of the axis for a later event that overlaps it. In every
other case the bands of size one that start at the depths make a feasible point.

The same point serves for the demands up to the first pair that leaves no room, with every start cut
off at the end of the axis. A solver that refuses contradictions only therefore gets as far as this
pair and no further.
-/

namespace CalendarDial.Bands

open Linear (Satisfiable Solver)

namespace Program

/-- Bands of size one, each as low as its depth allows but not beyond the axis. -/
def staircase (program : Program) : Point where
  start k := (min (depth program.pairs k) program.axis - 1 : Nat)
  size _ := 1

/-- On an axis that is not empty, the staircase keeps what is asked of each event alone. Depths
start at one, so a start is a whole number from zero to one below the end of the axis. -/
theorem staircase_alone (program : Program) (positive : 1 ≤ program.axis) (i : Nat)
    (requirement : Requirement) (member : requirement ∈ alone i) :
    requirement.Holds program.axis program.staircase := by
  have lower : (0 : Rat) ≤ program.staircase.start i := Nat.cast_nonneg _
  have upper : program.staircase.start i + 1 ≤ program.axis := by
    have deep := one_le_depth program.pairs i
    have whole : min (depth program.pairs i) program.axis - 1 + 1 ≤ program.axis := by omega
    simp only [staircase]
    exact_mod_cast whole
  have room : (1 : Rat) ≤ program.axis := by exact_mod_cast positive
  simp only [alone, List.mem_cons, List.not_mem_nil, or_false] at member
  rcases member with rfl | rfl | rfl | rfl | rfl
  · exact lower
  · change program.staircase.start i ≤ program.axis
    linarith
  · exact le_refl (1 : Rat)
  · exact room
  · exact upper

/-- The staircase leaves a later event above an overlapping one that is not too deep. The later
event is deeper by at least one, and cutting off at the end of the axis does not take this from it
while the earlier event leaves room. -/
theorem staircase_below (program : Program) (i j : Nat) (ordered : i < j)
    (paired : (i, j) ∈ program.pairs) (low : depth program.pairs i < program.axis) :
    (Requirement.below i j).Holds program.axis program.staircase := by
  have positive := one_le_depth program.pairs i
  have deeper := depth_lt_depth program.pairs i j ordered paired
  have whole : min (depth program.pairs i) program.axis - 1 + 1 ≤
      min (depth program.pairs j) program.axis - 1 := by omega
  simp only [Requirement.Holds, staircase]
  exact_mod_cast whole

/-- Demands can be met together when some point keeps all requirements among them. The values that
describe the point satisfy the constraints, for only the positions of events count. -/
theorem satisfiable_of_holds (program : Program) (inRange : program.InRange)
    (demands : List Demand) (known : ∀ demand ∈ demands, demand ∈ program.demands) (x : Point)
    (holds : ∀ requirement, .keep requirement ∈ demands → requirement.Holds program.axis x) :
    Satisfiable (demands.map program.constraint) := by
  refine ⟨program.valuesAt x, (program.satisfies_map_iff demands _).mpr ?_⟩
  intro requirement made
  exact program.holds_congr inRange x _ (program.sameUpTo_pointAt_valuesAt x) requirement
    (known _ made) (holds requirement made)

/-- A solver that refuses contradictions only accepts a feasible program as a whole. The values of
the feasible point satisfy all constraints, so none is ever refused, and the numbers reported in the
end can be read as a point. -/
theorem solveWith_of_feasible (solver : Solver) (refuses : solver.RefusesContradictions)
    (numbers : solver.ReportsNumbers) (program : Program) (inRange : program.InRange) (x : Point)
    (feasible : program.Feasible x) : ∃ y, program.solveWith solver = .ok y := by
  have possible : Satisfiable program.constraints :=
    program.satisfiable_of_holds inRange program.demands (fun _ made => made) x feasible
  have accepts : solver.Accepts program.constraints :=
    solver.accepts_of_satisfiable refuses _ possible
  obtain ⟨y, reported⟩ := program.read_eq_ok (solver.reading program.constraints)
    fun v => numbers _ v accepts
  have imposed : program.impose solver [] program.demands = .ok program.constraints :=
    program.impose_eq_ok solver [] program.demands accepts
  exact ⟨y, by rw [solveWith, imposed]; exact reported⟩

/-- A solver that refuses contradictions only fails at the first demand that contradicts the ones
before it. Those are accepted because they can be met together, and the refusal takes its name from
the demand. -/
theorem solveWith_of_contradiction (solver : Solver) (refuses : solver.RefusesContradictions)
    (program : Program) (before after : List Demand) (demand : Demand)
    (made : program.demands = before ++ demand :: after)
    (possible : Satisfiable (before.map program.constraint))
    (contradiction : ¬ Satisfiable ((before ++ [demand]).map program.constraint)) :
    program.solveWith solver = .error (.unsatisfiable demand.label) := by
  rw [List.map_append, List.map_singleton] at contradiction
  have refused := (refuses _ (program.constraint demand) possible).2 contradiction
  have imposed : program.impose solver [] program.demands =
      .error (Failure.ofRefusal demand.label .unsatisfiable) :=
    made ▸ program.impose_eq_error solver before after demand .unsatisfiable
      (solver.accepts_of_satisfiable refuses _ possible) refused
  rw [solveWith, imposed]
  rfl

/-- An event cannot start lower than its depth allows, less one: the bands of a chain that ends with
it lie below it, one above the other, and each covers at least one. -/
theorem depth_le_start_add_one (program : Program) (x : Point) (i : Nat)
    (lower : ∀ k ≤ i, 0 ≤ x.start k) (thick : ∀ k ≤ i, 1 ≤ x.size k)
    (below : ∀ a b, (a, b) ∈ program.pairs → a < i → x.start a + x.size a ≤ x.start b) :
    ∀ k ≤ i, (depth program.pairs k : Rat) ≤ x.start k + 1 := by
  intro k
  induction k using Nat.strongRecOn with
  | ind k inductionHypothesis =>
    intro bound
    rcases depth_eq_one_or_succ program.pairs k with single | ⟨a, earlier, paired, deeper⟩
    · have start := lower k bound
      rw [single, Nat.cast_one]
      linarith
    · have previous := inductionHypothesis a earlier (by omega)
      have stacked := below a k paired (by omega)
      have size := thick a (by omega)
      rw [deeper, Nat.cast_add, Nat.cast_one]
      linarith

/-- The demands up to a pair whose earlier event is too deep cannot be met: the later one would have
to start where the axis ends. All pairs that start below the earlier event are demanded by then, so
its start is as high as its depth says. -/
theorem not_satisfiable_of_deep (program : Program) (inRange : program.InRange)
    (before : List (Nat × Nat)) (i j : Nat) (paired : (i, j) ∈ program.pairs)
    (deep : program.axis ≤ depth program.pairs i)
    (earlier : ∀ a b, (a, b) ∈ program.pairs → a < i → (a, b) ∈ before) :
    ¬ Satisfiable
      ((program.demandsOn before ++ [Demand.keep (.below i j)]).map program.constraint) := by
  rintro ⟨values, satisfies⟩
  have holds := (program.satisfies_map_iff _ values).mp satisfies
  have pairsHold : ∀ requirement, .keep requirement ∈ program.demandsOn before →
      requirement.Holds program.axis (program.pointAt values) :=
    fun requirement made => holds requirement (List.mem_append_left _ made)
  obtain ⟨singles, pairs⟩ := (program.keeps_demandsOn_iff before _).mp pairsHold
  obtain ⟨ordered, bound⟩ := inRange i j paired
  have stacked : (program.pointAt values).start i + (program.pointAt values).size i ≤
      (program.pointAt values).start j :=
    holds (.below i j) (List.mem_append_right _ List.mem_cons_self)
  have start : (depth program.pairs i : Rat) ≤ (program.pointAt values).start i + 1 :=
    program.depth_le_start_add_one _ i (fun k lower => (singles k (by omega)).1)
      (fun k lower => (singles k (by omega)).2.2.1)
      (fun a b present smaller => pairs a b (earlier a b present smaller)) i (Nat.le_refl i)
  have reached : (program.axis : Rat) ≤ depth program.pairs i := Nat.cast_le.mpr deep
  obtain ⟨-, -, thick, -, -⟩ := singles i (by omega)
  obtain ⟨-, -, thickAbove, -, within⟩ := singles j bound
  linarith

/-- On an axis that is not empty, the first pair whose earlier event is too deep is where a layout
fails. The staircase meets all demands before it. The demands with this pair contradict each
other. -/
theorem solveWith_of_firstTooDeep (solver : Solver) (refuses : solver.RefusesContradictions)
    (program : Program) (inRange : program.InRange) (positive : 1 ≤ program.axis)
    (before after : List (Nat × Nat)) (i j : Nat)
    (split : program.pairs = before ++ (i, j) :: after)
    (tooDeep : FirstTooDeep program.pairs program.axis i j)
    (low : ∀ a b, (a, b) ∈ before → depth program.pairs a < program.axis)
    (earlier : ∀ a b, (a, b) ∈ program.pairs → a < i → (a, b) ∈ before) :
    program.solveWith solver = .error (.unsatisfiable s!"event {i} below event {j}") := by
  obtain ⟨rest, made⟩ : ∃ rest,
      program.demands = program.demandsOn before ++ Demand.keep (.below i j) :: rest := by
    simp only [demands, demandsOn, split, List.flatMap_append, List.flatMap_cons,
      List.append_assoc, List.cons_append, List.nil_append]
    exact ⟨_, rfl⟩
  have possible : Satisfiable ((program.demandsOn before).map program.constraint) := by
    apply program.satisfiable_of_holds inRange _ _ program.staircase
    · intro requirement made
      rcases (program.keep_mem_demandsOn_iff before requirement).mp made with
        ⟨k, -, member⟩ | ⟨a, b, present, rfl⟩
      · exact program.staircase_alone positive k requirement member
      · have listed : (a, b) ∈ program.pairs := split ▸ List.mem_append_left _ present
        exact program.staircase_below a b (inRange a b listed).1 listed (low a b present)
    · intro demand present
      rw [made]
      exact List.mem_append_left _ present
  exact program.solveWith_of_contradiction solver refuses _ _ _ made possible
    (program.not_satisfiable_of_deep inRange before i j tooDeep.paired tooDeep.deep earlier)

/-- On an empty axis a layout fails at the size of the first event, which cannot be both one and
zero. The three demands before it are met by a band of size one that starts at zero. -/
theorem solveWith_of_empty_axis (solver : Solver) (refuses : solver.RefusesContradictions)
    (program : Program) (inRange : program.InRange) (some : 0 < program.count)
    (empty : program.axis = 0) :
    program.solveWith solver = .error (.unsatisfiable "size[0] <= max") := by
  obtain ⟨rest, split⟩ : ∃ rest, program.demands =
      [.keep (.startAtLeastZero 0), .keep (.startAtMostAxis 0), .keep (.sizeAtLeastOne 0)] ++
        .keep (.sizeAtMostAxis 0) :: rest := by
    obtain ⟨others, count⟩ := Nat.exists_eq_succ_of_ne_zero some.ne'
    rw [demands, demandsOn, count, List.range_succ_eq_map]
    exact ⟨_, rfl⟩
  refine program.solveWith_of_contradiction solver refuses _ rest _ split ?_ ?_
  · apply program.satisfiable_of_holds inRange _ _ ⟨fun _ => 0, fun _ => 1⟩
    · intro requirement made
      simp only [List.mem_cons, Demand.keep.injEq, List.not_mem_nil, or_false] at made
      rcases made with rfl | rfl | rfl
      · exact le_refl (0 : Rat)
      · exact Nat.cast_nonneg _
      · exact le_refl (1 : Rat)
    · intro demand present
      rw [split]
      exact List.mem_append_left _ present
  · rintro ⟨values, satisfies⟩
    have holds := (program.satisfies_map_iff _ values).mp satisfies
    have thick : 1 ≤ (program.pointAt values).size 0 := holds (.sizeAtLeastOne 0) (by simp)
    have thin : (program.pointAt values).size 0 ≤ program.axis :=
      holds (.sizeAtMostAxis 0) (by simp)
    rw [empty, Nat.cast_zero] at thin
    linarith

/-- Where every event that a later one overlaps leaves room above it, the staircase is feasible. It
keeps what is asked of each event alone, and each pair is a pair that leaves room. -/
theorem staircase_feasible (program : Program) (inRange : program.InRange)
    (positive : 1 ≤ program.axis)
    (room : ∀ i j, (i, j) ∈ program.pairs → depth program.pairs i < program.axis) :
    program.Feasible program.staircase := by
  intro requirement made
  rcases (program.keep_mem_demands_iff requirement).mp made with
    ⟨k, -, member⟩ | ⟨i, j, paired, rfl⟩
  · exact program.staircase_alone positive k requirement member
  · exact program.staircase_below i j (inRange i j paired).1 paired (room i j paired)

end Program

/-- Where no event is too deep for the axis there is a layout, for the staircase is feasible.
Without events nothing needs an axis, since no point violates anything. -/
theorem layoutWith_of_shallow (solver : Solver) (refuses : solver.RefusesContradictions)
    (numbers : solver.ReportsNumbers) (axis : Nat) (events : List ClippedEvent)
    (shallow : events = [] ∨
      1 ≤ axis ∧ ∀ k < events.length, depth (positionPairs Overlaps events) k ≤ axis) :
    ∃ layout, layoutWith solver axis events = .ok layout := by
  have inRange := Program.inRange_ofEvents events axis
  have feasible : ∃ x, (Program.ofEvents events axis).Feasible x := by
    rcases shallow with rfl | ⟨positive, bounded⟩
    · exact ⟨⟨fun _ => 0, fun _ => 0⟩, (Program.feasible_iff _ _).mpr
        ⟨fun i bound => absurd bound (Nat.not_lt_zero i),
          fun i j paired => absurd (inRange i j paired).2 (Nat.not_lt_zero j)⟩⟩
    · have room := (depth_le_iff _ events.length axis positive inRange).mp bounded
      exact ⟨_, Program.staircase_feasible _ inRange positive room⟩
  obtain ⟨x, feasible⟩ := feasible
  obtain ⟨y, solved⟩ := Program.solveWith_of_feasible solver refuses numbers _ inRange x feasible
  exact ⟨_, (layoutWith_eq_ok_iff solver axis events _).mpr ⟨y, solved, rfl⟩⟩

/-- Where some event is too deep there is no layout, and the failure names the first pair that
leaves no room, or the size of the first event if the axis is empty. The pairs are in lexicographic
order, so the first of them that leaves no room has all pairs of earlier positions before it. -/
theorem layoutWith_of_deep (solver : Solver) (refuses : solver.RefusesContradictions) (axis : Nat)
    (events : List ClippedEvent)
    (deep : ¬ (events = [] ∨
      1 ≤ axis ∧ ∀ k < events.length, depth (positionPairs Overlaps events) k ≤ axis)) :
    axis = 0 ∧ layoutWith solver axis events = .error (.unsatisfiable "size[0] <= max") ∨
      1 ≤ axis ∧ ∃ i j, FirstTooDeep (positionPairs Overlaps events) axis i j ∧
        layoutWith solver axis events =
          .error (.unsatisfiable s!"event {i} below event {j}") := by
  have inRange := Program.inRange_ofEvents events axis
  obtain ⟨nonempty, deeper⟩ := not_or.mp deep
  rcases Nat.eq_zero_or_pos axis with empty | positive
  · have some : 0 < events.length := List.length_pos_iff.mpr nonempty
    exact .inl ⟨empty, (layoutWith_eq_error_iff solver axis events _).mpr
      (Program.solveWith_of_empty_axis solver refuses _ inRange some empty)⟩
  · have crowded : ¬ ∀ i j, (i, j) ∈ positionPairs Overlaps events →
        depth (positionPairs Overlaps events) i < axis := fun room =>
      deeper ⟨positive, (depth_le_iff _ events.length axis positive inRange).mpr room⟩
    obtain ⟨before, i, j, after, split, full, low⟩ := exists_first_too_deep _ axis crowded
    obtain ⟨tooDeep, earlier⟩ := firstTooDeep_of_split _ before after axis i j
      (pairwise_positionPairs Overlaps events) split full low
    exact .inr ⟨positive, i, j, tooDeep, (layoutWith_eq_error_iff solver axis events _).mpr
      (Program.solveWith_of_firstTooDeep solver refuses _ inRange positive before after i j split
        tooDeep low earlier)⟩

/-- The exact condition for an even layout, with any solver that refuses contradictions only and
reports numbers. There is one just when there are no events, or the axis is not empty and no event
is deeper than the axis is long. Otherwise the failure names the size of the first event if the axis
is empty, and else the first pair of which the earlier event leaves no room for the later one. An
axis with a level for every event is always long enough. -/
theorem layoutWith_succeeds_iff (solver : Solver) (refuses : solver.RefusesContradictions)
    (numbers : solver.ReportsNumbers) (axis : Nat) (events : List ClippedEvent) :
    ((∃ layout, layoutWith solver axis events = .ok layout) ↔
      events = [] ∨
        1 ≤ axis ∧ ∀ k < events.length, depth (positionPairs Overlaps events) k ≤ axis) ∧
    (∀ failure, layoutWith solver axis events = .error failure →
      (axis = 0 ∧ failure = .unsatisfiable "size[0] <= max") ∨
        (1 ≤ axis ∧ ∃ i j, FirstTooDeep (positionPairs Overlaps events) axis i j ∧
          failure = .unsatisfiable s!"event {i} below event {j}")) ∧
    (events.length ≤ axis → ∃ layout, layoutWith solver axis events = .ok layout) := by
  have succeeds := layoutWith_of_shallow solver refuses numbers axis events
  have fails := layoutWith_of_deep solver refuses axis events
  refine ⟨⟨fun ⟨layout, made⟩ => ?_, succeeds⟩, fun failure made => ?_, fun long => succeeds ?_⟩
  · by_contra deep
    rcases fails deep with ⟨-, failed⟩ | ⟨-, i, j, -, failed⟩
    · exact absurd (made.symm.trans failed) nofun
    · exact absurd (made.symm.trans failed) nofun
  · have deep := mt succeeds fun ⟨_, shown⟩ => absurd (shown.symm.trans made) nofun
    rcases fails deep with ⟨empty, failed⟩ | ⟨positive, i, j, tooDeep, failed⟩
    · exact .inl ⟨empty, Except.error.inj (made.symm.trans failed)⟩
    · exact .inr ⟨positive, i, j, tooDeep, Except.error.inj (made.symm.trans failed)⟩
  · rcases eq_or_ne events [] with none | some
    · exact .inl none
    · have first : 0 < events.length := List.length_pos_iff.mpr some
      refine .inr ⟨by omega, fun k bound => ?_⟩
      have shallow := depth_le_succ (positionPairs Overlaps events) k
      omega

/-- The solver that is used has both properties. Three events that overlap one another do not fit on
an axis of two levels, and the second of them is the first that leaves no room above it. -/
theorem layoutWith_succeeds_iff_of_three :
    solver.RefusesContradictions ∧ solver.ReportsNumbers ∧
      (¬ ∃ layout, layoutWith solver 2 [⟨0, 60, 1⟩, ⟨10, 60, 2⟩, ⟨20, 60, 3⟩] = .ok layout) ∧
      layoutWith solver 2 [⟨0, 60, 1⟩, ⟨10, 60, 2⟩, ⟨20, 60, 3⟩] =
        .error (.unsatisfiable "event 1 below event 2") ∧
      ∃ layout, layoutWith solver 3 [⟨0, 60, 1⟩, ⟨10, 60, 2⟩, ⟨20, 60, 3⟩] = .ok layout := by
  have refuses : solver.RefusesContradictions := Linear.exactSolver_refusesContradictions advice
  have numbers : solver.ReportsNumbers := Linear.exactSolver_reportsNumbers advice
  obtain ⟨condition, -, -⟩ := layoutWith_succeeds_iff solver refuses numbers 2
    [⟨0, 60, 1⟩, ⟨10, 60, 2⟩, ⟨20, 60, 3⟩]
  obtain ⟨-, -, fits⟩ := layoutWith_succeeds_iff solver refuses numbers 3
    [⟨0, 60, 1⟩, ⟨10, 60, 2⟩, ⟨20, 60, 3⟩]
  refine ⟨refuses, numbers, ?_, by decide +kernel, fits (by decide)⟩
  rw [condition]
  decide

end CalendarDial.Bands
