import CalendarDial.Proofs.Bands.Solving

/-!
# The even layout is an optimal one

The weak constraints never name an objective, but together they cost what the program says a point
costs. A solver that reports values of least cost therefore yields a point that is optimal among all
feasible ones, and the layout shows its bands. Only the positions of events matter: points that
agree there are feasible together, cost the same and have the same bands.
-/

namespace CalendarDial.Bands

open Linear (Satisfies Solver)

/-- Bands are read off the positions of events only. -/
theorem roundBands_congr (axis : Nat) (x y : Point) (events : List ClippedEvent)
    (same : x.SameUpTo events.length y) : roundBands axis x events = roundBands axis y events := by
  apply List.ext_getElem?
  intro i
  rw [roundBands, roundBands, List.getElem?_mapIdx, List.getElem?_mapIdx]
  apply Option.map_congr
  intro event found
  obtain ⟨starts, sizes⟩ := same i (List.getElem?_eq_some_iff.mp found).1
  rw [starts, sizes]

namespace Program

/-- What a point costs depends on the sizes at the positions of events only. The pairs lie among
these positions, and the sum of sizes runs over them. -/
theorem cost_congr (program : Program) (inRange : program.InRange) (x y : Point)
    (same : x.SameUpTo program.count y) : program.cost x = program.cost y := by
  have sums : program.totalSize x = program.totalSize y :=
    congrArg Rational.total
      (List.map_congr_left fun i bound => (same i (List.mem_range.mp bound)).2)
  rw [cost, cost, sums]
  apply congrArg (· + _)
  apply congrArg Rational.total
  apply List.map_congr_left
  rintro ⟨i, j⟩ present
  obtain ⟨ordered, bound⟩ := inRange i j present
  simp only [(same i (by omega)).2, (same j bound).2]

/-- Values of least cost among those that satisfy the constraints describe a point of least cost
among the feasible ones: any feasible point is described by values too, and they cost the same. -/
theorem optimal_of_cheapest (program : Program) (inRange : program.InRange) (values : Nat → Rat)
    (cheapest : Linear.Cheapest program.constraints values) :
    program.Optimal (program.pointAt values) := by
  obtain ⟨satisfies, least⟩ := cheapest
  refine ⟨(program.satisfies_constraints_iff values).mp satisfies, fun y feasible => ?_⟩
  have same := program.sameUpTo_pointAt_valuesAt y
  have other : Satisfies program.constraints (program.valuesAt y) :=
    (program.satisfies_constraints_iff _).mpr (program.feasible_congr inRange y _ same feasible)
  calc program.cost (program.pointAt values)
      = Linear.costOf program.constraints values := (program.costOf_constraints values).symm
    _ ≤ Linear.costOf program.constraints (program.valuesAt y) := least _ other
    _ = program.cost (program.pointAt (program.valuesAt y)) := program.costOf_constraints _
    _ = program.cost y := (program.cost_congr inRange y _ same).symm

/-- A minimising solver yields optimal points only. What it reports is of least cost among the
values that satisfy the constraints, and the point has the reported coordinates. -/
theorem optimal_of_solveWith_eq_ok (solver : Solver) (minimises : solver.Minimises)
    (program : Program) (inRange : program.InRange) (x : Point)
    (made : program.solveWith solver = .ok x) : program.Optimal x := by
  obtain ⟨values, rfl, accepts, agrees⟩ := program.spec_of_solveWith_eq_ok solver inRange x made
  exact program.optimal_of_cheapest inRange values (minimises _ values accepts agrees)

end Program

/-- A layout made with a minimising solver shows the rounded bands of a point that is feasible and
that no feasible point undercuts in the sum of half of every difference in size between overlapping
events and of what the sizes lack to fill the axis once for every event. If only one point is
optimal, as far as its events go, the bands shown are those of that point. -/
theorem layoutWith_optimal (solver : Solver) (minimises : solver.Minimises) (axis : Nat)
    (events : List ClippedEvent) (layout : Layout)
    (made : layoutWith solver axis events = .ok layout) :
    (∃ x, (Program.ofEvents events axis).Optimal x ∧ layout = ⟨roundBands axis x events, axis⟩) ∧
      ∀ x, (∀ y, (Program.ofEvents events axis).Optimal y → x.SameUpTo events.length y) →
        layout = ⟨roundBands axis x events, axis⟩ := by
  obtain ⟨x, solved, rfl⟩ := (layoutWith_eq_ok_iff solver axis events layout).mp made
  have optimal : (Program.ofEvents events axis).Optimal x :=
    Program.optimal_of_solveWith_eq_ok solver minimises _
      (Program.inRange_ofEvents events axis) x solved
  refine ⟨⟨x, optimal, rfl⟩, fun y only => ?_⟩
  rw [roundBands_congr axis y x events (only x optimal)]

/-- The solver that is used minimises, so three events in a chain on an axis of ten levels get the
bands of an optimal point. -/
theorem layoutWith_optimal_chain :
    solver.Minimises ∧
      layoutWith solver 10 [⟨0, 60, 1⟩, ⟨30, 90, 2⟩, ⟨70, 100, 3⟩] =
        .ok ⟨[⟨⟨0, 60, 1⟩, 0, 2⟩, ⟨⟨30, 90, 2⟩, 3, 6⟩, ⟨⟨70, 100, 3⟩, 7, 9⟩], 10⟩ ∧
      ∃ x, (Program.ofEvents [⟨0, 60, 1⟩, ⟨30, 90, 2⟩, ⟨70, 100, 3⟩] 10).Optimal x ∧
        (⟨[⟨⟨0, 60, 1⟩, 0, 2⟩, ⟨⟨30, 90, 2⟩, 3, 6⟩, ⟨⟨70, 100, 3⟩, 7, 9⟩], 10⟩ : Layout) =
          ⟨roundBands 10 x [⟨0, 60, 1⟩, ⟨30, 90, 2⟩, ⟨70, 100, 3⟩], 10⟩ := by
  have minimises : solver.Minimises := Linear.exactSolver_minimises advice
  have made : layoutWith solver 10 [⟨0, 60, 1⟩, ⟨30, 90, 2⟩, ⟨70, 100, 3⟩] =
      .ok ⟨[⟨⟨0, 60, 1⟩, 0, 2⟩, ⟨⟨30, 90, 2⟩, 3, 6⟩, ⟨⟨70, 100, 3⟩, 7, 9⟩], 10⟩ := by
    decide +kernel
  exact ⟨minimises, made, (layoutWith_optimal solver minimises 10 _ _ made).1⟩

end CalendarDial.Bands
