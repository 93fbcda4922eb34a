import Mathlib.Tactic.Linarith
import Mathlib.Tactic.Ring
import CalendarDial.Bands.Placement
import CalendarDial.Proofs.Linear.Penalties

/-!
# What the demands say

As constraints on unknowns, the demands say about a point what the program says about it: the
required ones hold exactly at the feasible points, and missing the weak ones costs what the point
costs. Only the positions of events matter for either, and every point is described by some values
of the unknowns as far as those positions go.
-/

namespace CalendarDial.Bands

open Linear (Constraint Satisfies)

/-- The points give the events at the first positions, as many as asked for, the same band. -/
def Point.SameUpTo (count : Nat) (x y : Point) : Prop :=
  ∀ i < count, x.start i = y.start i ∧ x.size i = y.size i

namespace Point.SameUpTo

variable {count : Nat} {x y z : Point}

/-- If one point gives the first events the same bands as another, so does the other. -/
theorem symm (same : x.SameUpTo count y) : y.SameUpTo count x :=
  fun i bound => ⟨(same i bound).1.symm, (same i bound).2.symm⟩

/-- Points that give the first events the same bands as a third one give them the same bands. -/
theorem trans (first : x.SameUpTo count y) (second : y.SameUpTo count z) : x.SameUpTo count z :=
  fun i bound =>
    ⟨(first i bound).1.trans (second i bound).1, (first i bound).2.trans (second i bound).2⟩

end Point.SameUpTo

namespace Program

/-- Every pair of positions is in order and lies among the events. -/
def InRange (program : Program) : Prop :=
  ∀ i j, (i, j) ∈ program.pairs → i < j ∧ j < program.count

/-- The pairs of a list of events lie among its positions. Both positions of an overlapping pair
hold an event, and the pairs are listed with the earlier position first. -/
theorem inRange_ofEvents (events : List ClippedEvent) (axis : Nat) :
    (ofEvents events axis).InRange := by
  intro i j present
  obtain ⟨ordered, _, second, _, found, _⟩ := mem_positionPairs_iff.mp present
  exact ⟨ordered, (List.getElem?_eq_some_iff.mp found).1⟩

/-- A requirement is made for an event alone or for one of the given pairs. The weak demands between
them are no requirements. -/
theorem keep_mem_demandsOn_iff (program : Program) (pairs : List (Nat × Nat))
    (requirement : Requirement) :
    .keep requirement ∈ program.demandsOn pairs ↔
      (∃ i < program.count, requirement ∈ alone i) ∨
        ∃ i j, (i, j) ∈ pairs ∧ requirement = .below i j := by
  simp only [demandsOn, List.mem_append, List.mem_flatMap, List.mem_range, List.mem_map,
    Demand.keep.injEq, exists_eq_right, List.mem_cons, List.not_mem_nil, or_false, reduceCtorEq,
    Prod.exists]

/-- The requirements are those on each event alone and those on the overlapping pairs. The last
demand, that the axis be filled, is a weak one. -/
theorem keep_mem_demands_iff (program : Program) (requirement : Requirement) :
    .keep requirement ∈ program.demands ↔
      (∃ i < program.count, requirement ∈ alone i) ∨
        ∃ i j, (i, j) ∈ program.pairs ∧ requirement = .below i j := by
  rw [demands, List.mem_append, keep_mem_demandsOn_iff, List.mem_singleton]
  simp only [reduceCtorEq, or_false]

/-- Whether a point keeps a requirement depends on the positions of events only. A requirement that
is made speaks of one event or of an overlapping pair, and in both cases of positions before the
number of events. -/
theorem holds_congr (program : Program) (inRange : program.InRange) (x y : Point)
    (same : x.SameUpTo program.count y) (requirement : Requirement)
    (made : .keep requirement ∈ program.demands) (holds : requirement.Holds program.axis x) :
    requirement.Holds program.axis y := by
  rcases (program.keep_mem_demands_iff requirement).mp made with
    ⟨i, bound, member⟩ | ⟨i, j, paired, rfl⟩
  · obtain ⟨starts, sizes⟩ := same i bound
    simp only [alone, List.mem_cons, List.not_mem_nil, or_false] at member
    rcases member with rfl | rfl | rfl | rfl | rfl <;>
      simpa only [Requirement.Holds, starts, sizes] using holds
  · obtain ⟨ordered, bound⟩ := inRange i j paired
    obtain ⟨starts, sizes⟩ := same i (by omega)
    simpa only [Requirement.Holds, starts, sizes, (same j bound).1] using holds

/-- Whether a point is feasible depends on the positions of events only. Each requirement is kept by
both points or by neither. -/
theorem feasible_congr (program : Program) (inRange : program.InRange) (x y : Point)
    (same : x.SameUpTo program.count y) (feasible : program.Feasible x) : program.Feasible y :=
  fun requirement made =>
    program.holds_congr inRange x y same requirement made (feasible requirement made)

/-- A point keeps what is required of the events and of the given pairs when every band lies on the
axis and covers at least one level's width of it, and of the two events of a pair the earlier one
lies below the other. -/
theorem keeps_demandsOn_iff (program : Program) (pairs : List (Nat × Nat)) (x : Point) :
    (∀ requirement, .keep requirement ∈ program.demandsOn pairs →
        requirement.Holds program.axis x) ↔
      (∀ i < program.count, 0 ≤ x.start i ∧ x.start i ≤ program.axis ∧ 1 ≤ x.size i ∧
        x.size i ≤ program.axis ∧ x.start i + x.size i ≤ program.axis) ∧
      ∀ i j, (i, j) ∈ pairs → x.start i + x.size i ≤ x.start j := by
  simp only [keep_mem_demandsOn_iff]
  constructor
  · intro holds
    constructor
    · intro i bound
      have each (requirement : Requirement) (member : requirement ∈ alone i) :=
        holds requirement (.inl ⟨i, bound, member⟩)
      simpa [alone, Requirement.Holds] using each
    · intro i j present
      exact holds (.below i j) (.inr ⟨i, j, present, rfl⟩)
  · rintro ⟨singles, pairs⟩ requirement (⟨i, bound, member⟩ | ⟨i, j, present, rfl⟩)
    · have each := singles i bound
      simp only [alone, List.mem_cons, List.not_mem_nil, or_false] at member
      rcases member with rfl | rfl | rfl | rfl | rfl
      · exact each.1
      · exact each.2.1
      · exact each.2.2.1
      · exact each.2.2.2.1
      · exact each.2.2.2.2
    · exact pairs i j present

/-- A point is feasible when it keeps what is required of the events and of all overlapping pairs.
These are the requirements made on the list of all pairs. -/
theorem feasible_iff (program : Program) (x : Point) :
    program.Feasible x ↔
      (∀ i < program.count, 0 ≤ x.start i ∧ x.start i ≤ program.axis ∧ 1 ≤ x.size i ∧
        x.size i ≤ program.axis ∧ x.start i + x.size i ≤ program.axis) ∧
      ∀ i j, (i, j) ∈ program.pairs → x.start i + x.size i ≤ x.start j := by
  rw [← keeps_demandsOn_iff]
  simp only [Feasible, keep_mem_demands_iff, keep_mem_demandsOn_iff]

instance (program : Program) (x : Point) : Decidable (program.Feasible x) :=
  decidable_of_iff
    ((∀ i < program.count, 0 ≤ x.start i ∧ x.start i ≤ program.axis ∧ 1 ≤ x.size i ∧
        x.size i ≤ program.axis ∧ x.start i + x.size i ≤ program.axis) ∧
      ∀ pair ∈ program.pairs, x.start pair.1 + x.size pair.1 ≤ x.start pair.2)
    (by rw [feasible_iff, Prod.forall])

/-- A requirement as a constraint says the same about the point that the unknowns describe. In the
constraint everything with an unknown stands on one side, so the two differ by moving terms
across. -/
theorem requirementConstraint_holds_iff (program : Program) (requirement : Requirement)
    (values : Nat → Rat) :
    (program.requirementConstraint requirement).Holds values ↔
      requirement.Holds program.axis (program.pointAt values) := by
  cases requirement with
  | below i j =>
    simp only [requirementConstraint, Constraint.Holds, Requirement.Holds, pointAt, Linear.valueOf,
      List.map_cons, List.map_nil, Rational.total]
    constructor <;> intro bounded <;> linarith
  | _ =>
    simp [requirementConstraint, Constraint.Holds, Requirement.Holds, pointAt, Linear.valueOf,
      Rational.total]

/-- Every requirement is a required constraint. -/
theorem requirementConstraint_required (program : Program) (requirement : Requirement) :
    (program.requirementConstraint requirement).Required := by
  cases requirement <;> exact trivial

/-- Of the demands, the required constraints are the requirements. The two weak demands carry a
weight instead. -/
theorem constraint_required_iff (program : Program) (demand : Demand) :
    (program.constraint demand).Required ↔ ∃ requirement, demand = .keep requirement := by
  cases demand with
  | keep requirement =>
    exact iff_of_true (program.requirementConstraint_required requirement) ⟨requirement, rfl⟩
  | equalSizes i j => exact iff_of_false id (by simp)
  | fullAxis => exact iff_of_false id (by simp)

/-- Values satisfy the required ones of some demands exactly when the point that they describe keeps
the requirements among them. Each of these constraints says about the values what its requirement
says about the point. -/
theorem satisfies_map_iff (program : Program) (demands : List Demand) (values : Nat → Rat) :
    Satisfies (demands.map program.constraint) values ↔
      ∀ requirement, .keep requirement ∈ demands →
        requirement.Holds program.axis (program.pointAt values) := by
  simp only [Satisfies, List.forall_mem_map, constraint_required_iff]
  constructor
  · intro holds requirement present
    exact (program.requirementConstraint_holds_iff requirement values).mp
      (holds _ present ⟨requirement, rfl⟩)
  · rintro holds _ present ⟨requirement, rfl⟩
    exact (program.requirementConstraint_holds_iff requirement values).mpr (holds _ present)

/-- Values satisfy the required constraints exactly when they describe a feasible point. -/
theorem satisfies_constraints_iff (program : Program) (values : Nat → Rat) :
    Satisfies program.constraints values ↔ program.Feasible (program.pointAt values) :=
  program.satisfies_map_iff program.demands values

/-- Every point is described by values of the unknowns, as far as its events go. The starts are the
unknowns before the number of events and the sizes are those from there on, so neither overwrites
the other. -/
theorem sameUpTo_pointAt_valuesAt (program : Program) (x : Point) :
    x.SameUpTo program.count (program.pointAt (program.valuesAt x)) := by
  intro i bound
  have beyond : ¬ program.sizeIndex i < program.count := Nat.not_lt.mpr (Nat.le_add_right _ _)
  have position : program.sizeIndex i - program.count = i := Nat.add_sub_cancel_left _ _
  have size : program.valuesAt x (program.sizeIndex i) = x.size i :=
    (if_neg beyond).trans (congrArg x.size position)
  exact ⟨(if_pos bound).symm, size.symm⟩

/-- What the demands cost, one after the other, when the unknowns describe the given point: nothing
for a requirement, half of every difference in size, and what the sizes lack in all. -/
def demandCost (program : Program) (x : Point) : Demand → Rat
  | .keep _ => 0
  | .equalSizes i j => (x.size i - x.size j).abs / 2
  | .fullAxis => Rational.larger 0 (program.axis * program.count - program.totalSize x)

/-- Missing the constraint of a demand costs what the demand costs at the point described. A
requirement has no weight, what the constraint of equal sizes misses is the difference between them,
and what the last one misses is what the sizes lack. -/
theorem weight_mul_violation (program : Program) (values : Nat → Rat) (demand : Demand) :
    (program.constraint demand).weight * (program.constraint demand).violation values =
      program.demandCost (program.pointAt values) demand := by
  cases demand with
  | keep requirement =>
    have required := program.requirementConstraint_required requirement
    rw [constraint, Constraint.weight_eq_zero _ required, zero_mul]
    rfl
  | equalSizes i j =>
    have difference :
        Linear.valueOf [(1, program.sizeIndex i), (-1, program.sizeIndex j)] values - 0 =
          (program.pointAt values).size i - (program.pointAt values).size j := by
      simp only [Linear.valueOf, pointAt, List.map_cons, List.map_nil, Rational.total]
      ring
    simp only [constraint, Constraint.weight, Constraint.violation, demandCost, difference]
    ring
  | fullAxis =>
    have whole : Linear.valueOf ((List.range program.count).map fun i => (1, program.sizeIndex i))
        values = program.totalSize (program.pointAt values) := by
      simp only [Linear.valueOf, totalSize, pointAt, List.map_map, Function.comp_def, one_mul]
    simp only [constraint, Constraint.weight, Constraint.violation, demandCost, whole, one_mul]

/-- The cost of values under the constraints of a program is the cost of the point that they
describe: the weak constraints add up to half of every difference in size between overlapping events
and what the sizes lack to fill the axis once for every event. The demands are listed event by
event, then pair by pair, then the one about the whole axis, and so is the sum. -/
theorem costOf_constraints (program : Program) (values : Nat → Rat) :
    Linear.costOf program.constraints values = program.cost (program.pointAt values) := by
  let x := program.pointAt values
  have singles (i : Nat) :
      Rational.total (((alone i).map Demand.keep).map (program.demandCost x)) = 0 :=
    Rational.total_map_zero (alone i)
  have pairs (pair : Nat × Nat) :
      Rational.total ([.keep (.below pair.1 pair.2), .equalSizes pair.1 pair.2].map
        (program.demandCost x)) = (x.size pair.1 - x.size pair.2).abs / 2 :=
    (zero_add _).trans (add_zero _)
  have whole : Rational.total ([.fullAxis].map (program.demandCost x)) =
      Rational.larger 0 (program.axis * program.count - program.totalSize x) := add_zero _
  calc Linear.costOf program.constraints values
      = Rational.total (program.demands.map (program.demandCost x)) := by
        simp only [Linear.costOf, constraints, List.map_map, Function.comp_def,
          weight_mul_violation, x]
    _ = Rational.total ((List.range program.count).map fun _ => 0) +
          Rational.total (program.pairs.map fun pair =>
            (x.size pair.1 - x.size pair.2).abs / 2) +
          Rational.larger 0 (program.axis * program.count - program.totalSize x) := by
        simp only [demands, demandsOn, List.map_append, Rational.total_append, List.map_flatMap,
          Rational.total_flatMap, singles, pairs, whole]
    _ = program.cost x := by
        rw [Rational.total_map_zero, zero_add, cost]

end Program

end CalendarDial.Bands
