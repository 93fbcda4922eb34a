import Mathlib.Algebra.Order.BigOperators.Group.List
import Mathlib.Data.List.Induction
import CalendarDial.Proofs.Linear.Certificate
import CalendarDial.Proofs.Linear.Elimination
import CalendarDial.Proofs.Linear.Penalties

/-!
# What the exact solver can be relied upon for

Whatever advice it gets, the exact solver refuses a constraint just when it contradicts the accepted
ones, reports a number for every unknown, and reports values that cost least among those that
satisfy what is required. Every property that is asked of a solver elsewhere therefore has a solver
that runs.
-/

namespace CalendarDial.Linear

/-- The required constraints hold exactly when all their rows do. Each constraint holds when the one
or two rows that it is made of do. -/
theorem requiredRows_hold_iff (constraints : List Constraint) (x : Nat → Rat) :
    (∀ row ∈ requiredRows constraints, row.Holds x) ↔ Satisfies constraints x := by
  have rows (constraint : Constraint) := constraint.rows_hold_iff x
  simp only [requiredRows, List.mem_flatMap, List.mem_filter, decide_eq_true_eq, Satisfies]
  constructor
  · intro holds constraint present required
    exact (rows constraint).mp fun row member => holds row ⟨constraint, ⟨present, required⟩, member⟩
  · rintro satisfies row ⟨constraint, ⟨present, required⟩, member⟩
    exact (rows constraint).mpr (satisfies constraint present required) row member

/-- Rows written out hold at a point exactly when the rows hold for its coordinates. -/
theorem feasible_rows_iff (rows : List Row) (point : List Rat) :
    Feasible (rows.map Row.inequality) point ↔ ∀ row ∈ rows, row.Holds (coordinates point) := by
  rw [Feasible, List.forall_mem_map]
  exact forall₂_congr fun row _ => by rw [Inequality.Holds, dot_inequality]; rfl

/-- Constraints are satisfiable exactly when their rows have a solution with one coordinate for each
unknown. Values beyond the unknowns that occur change nothing, so those that do occur can be written
down as a point. -/
theorem satisfiable_iff_feasible (constraints : List Constraint) :
    Satisfiable constraints ↔
      ∃ point : List Rat, point.length = unknownCount constraints ∧
        Feasible ((requiredRows constraints).map Row.inequality) point := by
  constructor
  · rintro ⟨x, satisfies⟩
    have agrees := agree_of_prefix constraints x []
    rw [List.append_nil] at agrees
    refine ⟨(List.range (unknownCount constraints)).map x,
      by rw [List.length_map, List.length_range], ?_⟩
    rw [feasible_rows_iff, requiredRows_hold_iff]
    exact (satisfies_congr constraints _ x agrees).mpr satisfies
  · rintro ⟨point, -, feasible⟩
    rw [feasible_rows_iff, requiredRows_hold_iff] at feasible
    exact ⟨_, feasible⟩

/-- The solver knows whether constraints are satisfiable, whatever it tries first. A suggested point
is checked, a refutation is checked too, and otherwise elimination decides. -/
theorem satisfiable_iff (constraints : List Constraint) :
    satisfiable constraints = true ↔ Satisfiable constraints := by
  simp only [satisfiable]
  split
  next suggested => exact iff_of_true rfl ⟨_, suggested⟩
  next =>
    rw [satisfiable_iff_feasible]
    split
    next refuted =>
      refine iff_of_false Bool.false_ne_true ?_
      rintro ⟨point, -, feasible⟩
      exact not_feasible_of_refutes _ _ refuted point feasible
    next =>
      constructor
      · intro found
        obtain ⟨point, found⟩ := Option.isSome_iff_exists.mp found
        exact ⟨point, solution_feasible _ _ point found⟩
      · rintro ⟨point, length, feasible⟩
        exact solution_isSome_of_feasible _ _ point length feasible

/-- If there is a solution and the last coordinate is bounded from below, a solution with the least
last coordinate is found, whatever is proposed. A valid proposal is right about its point, and
without one elimination finds a point. -/
theorem leastLast_spec (inequalities : List Inequality) (dimension : Nat) (proposal : Certificate)
    (floor : Rat)
    (bounded : ∀ other : List Rat, other.length = dimension + 1 → Feasible inequalities other →
      floor ≤ other.getLastD 0)
    (point : List Rat) (length : point.length = dimension + 1)
    (feasible : Feasible inequalities point) :
    ∃ least, leastLast inequalities (dimension + 1) proposal = some least ∧
      LeastLast inequalities (dimension + 1) least := by
  unfold leastLast
  split
  next valid => exact ⟨_, rfl, proposal.leastLast_of_valid inequalities _ valid⟩
  next =>
    obtain ⟨least, found⟩ := Option.isSome_iff_exists.mp
      (solution_isSome_of_feasible (dimension + 1) inequalities point length feasible)
    obtain ⟨leastLength, leastFeasible⟩ := solution_feasible _ _ least found
    exact ⟨least, found, leastLength, leastFeasible, fun other otherLength otherFeasible =>
      solution_least dimension inequalities floor bounded least other found otherLength
        otherFeasible⟩

/-- No constraint is missed by less than nothing. It is an absolute value, or the larger of a
difference and zero. -/
theorem Constraint.violation_nonneg (constraint : Constraint) (x : Nat → Rat) :
    0 ≤ constraint.violation x := by
  obtain ⟨terms, relation, bound, strength⟩ := constraint
  cases relation with
  | atMost => exact le_max_left _ _
  | equal => exact Rat.abs_nonneg
  | atLeast => exact le_max_left _ _

/-- No values cost less than nothing. It is a sum of products of weights and misses, none of which
is negative. -/
theorem costOf_nonneg (constraints : List Constraint) (x : Nat → Rat) :
    0 ≤ costOf constraints x := by
  rw [costOf, Rational.total_eq_sum]
  apply List.sum_nonneg
  intro price listed
  obtain ⟨constraint, -, rfl⟩ := List.mem_map.mp listed
  exact mul_nonneg constraint.weight_nonneg (constraint.violation_nonneg x)

/-- For satisfiable constraints the solver finds values that cost least. They extend to a solution
of the system, whose last coordinate is bounded from below because it is at least a cost, so one
with the least last coordinate is found. -/
theorem cheapest_spec (advice : Certificate) (constraints : List Constraint)
    (satisfiable : Satisfiable constraints) :
    ∃ point, cheapest advice constraints = some point ∧
      Cheapest constraints (coordinates point) := by
  obtain ⟨x, satisfies⟩ := satisfiable
  have bounded (other : List Rat) (length : other.length = costIndex constraints + 1)
      (feasible : Feasible (system constraints) other) : 0 ≤ other.getLastD 0 := by
    rw [getLastD_eq_coordinates constraints other length]
    exact le_trans (costOf_nonneg constraints _)
      (satisfies_of_feasible_system constraints other feasible).2
  obtain ⟨point, found, least⟩ := leastLast_spec (system constraints) (costIndex constraints) advice
    0 bounded _ (length_extension constraints x) (feasible_extension constraints x satisfies)
  exact ⟨point, found, cheapest_of_leastLast constraints point least⟩

/-- A constraint that is not required contradicts nothing. The same values do, for nothing more is
required of them. -/
theorem satisfiable_append_weak (constraints : List Constraint) (next : Constraint)
    (weak : ¬ next.Required) (satisfiable : Satisfiable constraints) :
    Satisfiable (constraints ++ [next]) := by
  obtain ⟨x, satisfies⟩ := satisfiable
  refine ⟨x, List.forall_mem_append.mpr ⟨satisfies, ?_⟩⟩
  rw [List.forall_mem_singleton]
  exact fun required => absurd required weak

namespace Solver

/-- Constraints are accepted when all but the last are, and the last after them. -/
theorem accepts_append_iff (solver : Solver) (constraints : List Constraint) (next : Constraint) :
    solver.Accepts (constraints ++ [next]) ↔
      solver.Accepts constraints ∧ solver.refusal? constraints next = none := by
  constructor
  · intro accepts
    refine ⟨fun before constraint after split => accepts before constraint (after ++ [next]) ?_,
      accepts constraints next [] rfl⟩
    rw [split, List.append_assoc, List.cons_append]
  · rintro ⟨accepts, last⟩ before constraint after split
    rcases List.eq_nil_or_concat' after with rfl | ⟨others, final, rfl⟩
    · obtain ⟨rfl, same⟩ := List.append_inj' split rfl
      exact List.singleton_inj.mp same ▸ last
    · have regrouped : constraints ++ [next] = (before ++ constraint :: others) ++ [final] := by
        rw [split, List.append_assoc, List.cons_append]
      exact accepts before constraint others (List.append_inj' regrouped rfl).1

/-- No constraints at all are accepted by every solver. -/
theorem accepts_nil (solver : Solver) : solver.Accepts [] := by
  intro before constraint after split
  exact absurd split.symm (List.append_ne_nil_of_right_ne_nil _ (List.cons_ne_nil _ _))

/-- No constraints at all are satisfiable. -/
theorem satisfiable_nil : Satisfiable [] :=
  ⟨fun _ => 0, fun _ present => absurd present List.not_mem_nil⟩

/-- A solver that refuses contradictions only ever accepts what is satisfiable. By induction on the
constraints in turn: the last one would have been refused if it contradicted the others. -/
theorem satisfiable_of_accepts (solver : Solver) (refuses : solver.RefusesContradictions)
    (constraints : List Constraint) (accepts : solver.Accepts constraints) :
    Satisfiable constraints := by
  induction constraints using List.reverseRecOn with
  | nil => exact satisfiable_nil
  | append_singleton constraints next inductionHypothesis =>
    obtain ⟨accepted, last⟩ := (solver.accepts_append_iff constraints next).mp accepts
    by_contra contradictory
    have refused := (refuses constraints next (inductionHypothesis accepted)).2 contradictory
    rw [last] at refused
    cases refused

end Solver

/-- The exact solver refuses a constraint just when it contradicts the accepted ones. It knows
whether they can be satisfied together, and lets everything that is not required pass. -/
theorem exactSolver_refusesContradictions (adviser : List Constraint → Certificate) :
    (exactSolver adviser).RefusesContradictions := by
  intro constraints next possible
  have known := satisfiable_iff (constraints ++ [next])
  constructor
  · exact fun possible => if_neg fun refused => refused.2 (known.mpr possible)
  · intro contradictory
    by_cases required : next.Required
    · exact if_pos ⟨required, fun found => contradictory (known.mp found)⟩
    · exact absurd (satisfiable_append_weak constraints next required possible) contradictory

/-- The exact solver reports a number for every unknown. Where the list of values ends, the number
is zero. -/
theorem exactSolver_reportsNumbers (adviser : List Constraint → Certificate) :
    (exactSolver adviser).ReportsNumbers := by
  intro constraints v _
  simp only [exactSolver, Reading.value?, List.getD_map, ne_eq, reduceCtorEq, not_false_eq_true]

/-- The values that the exact solver reports cost least among those that satisfy what is required.
Only the unknowns of the constraints matter for this, and what was accepted can be satisfied, so
that there are such values at all. -/
theorem exactSolver_minimises (adviser : List Constraint → Certificate) :
    (exactSolver adviser).Minimises := by
  intro constraints x accepts agrees
  have possible : Satisfiable constraints :=
    (exactSolver adviser).satisfiable_of_accepts (exactSolver_refusesContradictions adviser)
      constraints accepts
  obtain ⟨point, found, cheapest⟩ := cheapest_spec (adviser constraints) constraints possible
  refine (cheapest_congr constraints _ x fun constraint present term occurs => ?_).mp cheapest
  have reported := agrees constraint present term occurs
  rw [coordinates]
  simpa only [exactSolver, found, Option.getD_some, Reading.value?, List.getD_map,
    Option.some.injEq] using reported

/-- A solver whose values cost least satisfies what is required. -/
theorem Solver.sound_of_minimises (solver : Solver) (minimises : solver.Minimises) : solver.Sound :=
  fun constraints x accepts agrees => (minimises constraints x accepts agrees).1

end CalendarDial.Linear
