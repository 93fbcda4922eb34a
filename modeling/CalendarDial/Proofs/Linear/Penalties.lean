import Mathlib.Data.List.Basic
import Mathlib.Data.List.GetD
import Mathlib.Tactic.Linarith
import CalendarDial.Linear.Certificate
import CalendarDial.Linear.Penalties
import CalendarDial.Proofs.Rational

/-!
# The system asks for the cheapest values

The solutions of the system are the values that satisfy every required constraint, together with
allowances that are at least what each weak constraint is missed by and a cost that is at least
their weighted sum. Values that satisfy what is required extend to a solution whose last coordinate
is exactly what they cost. A solution with the least last coordinate therefore begins with values
that cost least.
-/

namespace CalendarDial.Linear

/-- The values of the unknowns that are coordinates of a point. -/
def coordinates (point : List Rat) (v : Nat) : Rat := point.getD v 0

/-- Two assignments give the same values to all unknowns of the constraints. -/
def Agree (constraints : List Constraint) (x y : Nat → Rat) : Prop :=
  ∀ constraint ∈ constraints, ∀ term ∈ constraint.terms, x term.2 = y term.2

/-- A combination has the same value where its unknowns have. -/
theorem valueOf_congr (terms : List (Rat × Nat)) (x y : Nat → Rat)
    (agree : ∀ term ∈ terms, x term.2 = y term.2) : valueOf terms x = valueOf terms y := by
  unfold valueOf
  rw [List.map_congr_left fun term present => congrArg (term.1 * ·) (agree term present)]

/-- With the opposite sign a combination has the opposite value. The sign can be taken out of every
term. -/
theorem valueOf_opposite (terms : List (Rat × Nat)) (x : Nat → Rat) :
    valueOf (opposite terms) x = -valueOf terms x := by
  induction terms with
  | nil => exact neg_zero.symm
  | cons term terms inductionHypothesis =>
    simp only [valueOf, opposite, List.map_cons, Rational.total] at inductionHypothesis ⊢
    rw [inductionHypothesis, neg_mul, neg_add]

namespace Constraint

/-- Whether a constraint holds depends on its unknowns alone. -/
theorem holds_congr (constraint : Constraint) (x y : Nat → Rat)
    (agree : ∀ term ∈ constraint.terms, x term.2 = y term.2) :
    constraint.Holds x ↔ constraint.Holds y := by
  obtain ⟨terms, relation, bound, strength⟩ := constraint
  cases relation <;> simp only [Holds, valueOf_congr terms x y agree]

/-- What a constraint is missed by depends on its unknowns alone. -/
theorem violation_congr (constraint : Constraint) (x y : Nat → Rat)
    (agree : ∀ term ∈ constraint.terms, x term.2 = y term.2) :
    constraint.violation x = constraint.violation y := by
  obtain ⟨terms, relation, bound, strength⟩ := constraint
  cases relation <;> simp only [violation, valueOf_congr terms x y agree]

/-- A weight is never negative. -/
theorem weight_nonneg (constraint : Constraint) : 0 ≤ constraint.weight := by
  obtain ⟨terms, relation, bound, _ | ⟨weight, nonnegative⟩⟩ := constraint
  · exact le_refl 0
  · exact nonnegative

/-- A required constraint has no weight. -/
theorem weight_eq_zero (constraint : Constraint) (required : constraint.Required) :
    constraint.weight = 0 := by
  obtain ⟨terms, relation, bound, _ | ⟨weight, nonnegative⟩⟩ := constraint
  · rfl
  · exact required.elim

/-- A constraint holds exactly when its rows do. An equation has two rows, one for each direction,
and a lower bound is an upper bound on the opposite. -/
theorem rows_hold_iff (constraint : Constraint) (x : Nat → Rat) :
    (∀ row ∈ constraint.rows, row.Holds x) ↔ constraint.Holds x := by
  obtain ⟨terms, relation, bound, strength⟩ := constraint
  cases relation with
  | atMost => simp [rows, Row.Holds, Holds]
  | equal =>
    simp only [rows, Row.Holds, Holds, List.forall_mem_cons, List.not_mem_nil, false_implies,
      implies_true, and_true, valueOf_opposite, neg_le_neg_iff]
    exact le_antisymm_iff.symm
  | atLeast => simp [rows, Row.Holds, Holds, valueOf_opposite]

/-- A constraint is missed by at most so much exactly when its rows are. -/
theorem rows_within_iff (constraint : Constraint) (x : Nat → Rat) (allowance : Rat) :
    ((∀ row ∈ constraint.rows, valueOf row.terms x ≤ row.bound + allowance) ∧ 0 ≤ allowance) ↔
      constraint.violation x ≤ allowance := by
  obtain ⟨terms, relation, bound, strength⟩ := constraint
  cases relation with
  | atMost =>
    simp only [rows, violation, List.forall_mem_singleton, Rational.larger_eq_max, max_le_iff]
    constructor <;> rintro ⟨first, second⟩ <;> constructor <;> linarith
  | equal =>
    simp only [rows, violation, List.forall_mem_cons, List.not_mem_nil, false_implies,
      implies_true, and_true, valueOf_opposite, Rational.abs_eq, abs_le]
    constructor
    · rintro ⟨⟨above, below⟩, -⟩
      constructor <;> linarith
    · rintro ⟨below, above⟩
      refine ⟨⟨?_, ?_⟩, ?_⟩ <;> linarith
  | atLeast =>
    simp only [rows, violation, List.forall_mem_singleton, valueOf_opposite,
      Rational.larger_eq_max, max_le_iff]
    constructor <;> rintro ⟨first, second⟩ <;> constructor <;> linarith

end Constraint

/-- Values that satisfy the required constraints still do after a change to other unknowns. -/
theorem satisfies_congr (constraints : List Constraint) (x y : Nat → Rat)
    (agree : Agree constraints x y) : Satisfies constraints x ↔ Satisfies constraints y :=
  forall₂_congr fun constraint present =>
    imp_congr_right fun _ => constraint.holds_congr x y (agree constraint present)

/-- Values cost the same after a change to other unknowns. -/
theorem costOf_congr (constraints : List Constraint) (x y : Nat → Rat)
    (agree : Agree constraints x y) : costOf constraints x = costOf constraints y := by
  unfold costOf
  rw [List.map_congr_left fun constraint present =>
    congrArg (constraint.weight * ·) (constraint.violation_congr x y (agree constraint present))]

/-- Values are still cheapest after a change to other unknowns. -/
theorem cheapest_congr (constraints : List Constraint) (x y : Nat → Rat)
    (agree : Agree constraints x y) : Cheapest constraints x ↔ Cheapest constraints y := by
  unfold Cheapest
  rw [satisfies_congr constraints x y agree, costOf_congr constraints x y agree]

/-- A row written out with all coefficients says the same about the coordinates of a point. -/
theorem dot_inequality (row : Row) (point : List Rat) :
    dot row.inequality.coefficients point = valueOf row.terms (coordinates point) := by
  obtain ⟨terms, bound⟩ := row
  induction terms with
  | nil => exact dot_nil_left point
  | cons term terms inductionHypothesis =>
    simp only [Row.inequality, List.foldr_cons, dot_plus, dot_unit, valueOf, List.map_cons,
      Rational.total] at inductionHypothesis ⊢
    rw [inductionHypothesis]
    rfl

/-- A row that may be missed by the value of an unknown. -/
theorem allow_holds_iff (row : Row) (allowance : Nat) (point : List Rat) :
    (row.inequality.allow allowance).Holds point ↔
      valueOf row.terms (coordinates point) ≤ row.bound + coordinates point allowance := by
  have same : row.inequality.bound = row.bound := rfl
  simp only [Inequality.Holds, Inequality.allow, dot_plus, dot_unit, dot_inequality, same]
  constructor <;> intro bounded <;> unfold coordinates at * <;> linarith

/-- An unknown that is not negative. -/
theorem notNegative_holds_iff (v : Nat) (point : List Rat) :
    (notNegative v).Holds point ↔ 0 ≤ coordinates point v := by
  simp only [Inequality.Holds, notNegative, dot_unit, coordinates, neg_mul, one_mul, neg_nonpos]

/-- Each weak constraint is missed by at most its allowance, the first having the given one. -/
def Allowed (allowance : Nat) (constraints : List Constraint) (point : List Rat) : Prop :=
  ∀ n constraint, (weakOnes constraints)[n]? = some constraint →
    constraint.violation (coordinates point) ≤ coordinates point (allowance + n)

/-- A required constraint has no allowance. -/
theorem weakOnes_cons_required (constraint : Constraint) (constraints : List Constraint)
    (required : constraint.Required) :
    weakOnes (constraint :: constraints) = weakOnes constraints := by
  simp [weakOnes, required]

/-- A weak constraint has the first allowance, and the others follow. -/
theorem weakOnes_cons_weak (constraint : Constraint) (constraints : List Constraint)
    (weak : ¬ constraint.Required) :
    weakOnes (constraint :: constraints) = constraint :: weakOnes constraints := by
  simp [weakOnes, weak]

/-- The first weak constraint is within its allowance, and so are the others. The place of each of
the others, and with it the place of its allowance, is counted from one further on. -/
theorem allowed_cons_weak (allowance : Nat) (constraint : Constraint)
    (constraints : List Constraint) (point : List Rat) (weak : ¬ constraint.Required) :
    Allowed allowance (constraint :: constraints) point ↔
      constraint.violation (coordinates point) ≤ coordinates point allowance ∧
        Allowed (allowance + 1) constraints point := by
  unfold Allowed
  rw [weakOnes_cons_weak constraint constraints weak]
  constructor
  · intro within
    refine ⟨within 0 constraint rfl, fun n other found => ?_⟩
    have next := within (n + 1) other found
    rwa [Nat.add_left_comm, Nat.add_comm] at next
  · rintro ⟨first, rest⟩ n other found
    cases n with
    | zero => exact Option.some.inj found ▸ first
    | succ n =>
      have next := rest n other found
      rwa [Nat.add_assoc, Nat.add_comm 1] at next

/-- The inequalities of the constraints hold exactly when the required ones do and the weak ones are
within their allowances. The induction is on the constraints: a required one contributes its rows as
they are, and a weak one its rows with the next allowance added to their bounds. -/
theorem feasible_penalised_iff (allowance : Nat) (constraints : List Constraint)
    (point : List Rat) :
    Feasible (penalised allowance constraints) point ↔
      Satisfies constraints (coordinates point) ∧ Allowed allowance constraints point := by
  induction constraints generalizing allowance with
  | nil => simp [Feasible, penalised, Satisfies, Allowed, weakOnes]
  | cons constraint constraints inductionHypothesis =>
    have rest := fun next => inductionHypothesis next
    unfold Feasible Satisfies at rest ⊢
    by_cases required : constraint.Required
    · have rows : (∀ q ∈ constraint.rows.map Row.inequality, q.Holds point) ↔
          constraint.Holds (coordinates point) := by
        rw [List.forall_mem_map, ← constraint.rows_hold_iff]
        exact forall₂_congr fun row _ => by rw [Inequality.Holds, dot_inequality]; rfl
      have same : Allowed allowance (constraint :: constraints) point ↔
          Allowed allowance constraints point := by
        rw [Allowed, weakOnes_cons_required constraint constraints required, Allowed]
      rw [penalised, if_pos required, List.forall_mem_append, rows, rest, List.forall_mem_cons,
        same, and_assoc, imp_iff_right required]
    · have rows : ((∀ q ∈ (constraint.rows.map Row.inequality).map (Inequality.allow allowance),
          q.Holds point) ∧ (notNegative allowance).Holds point) ↔
          constraint.violation (coordinates point) ≤ coordinates point allowance := by
        rw [List.forall_mem_map, List.forall_mem_map, notNegative_holds_iff,
          ← constraint.rows_within_iff]
        exact and_congr_left fun _ => forall₂_congr fun row _ => allow_holds_iff row allowance point
      rw [penalised, if_neg required, List.forall_mem_append, List.forall_mem_cons, ← and_assoc,
        rows, rest, List.forall_mem_cons,
        allowed_cons_weak allowance constraint constraints point required]
      simp only [required, false_implies, true_and]
      exact and_left_comm

/-- The penalty adds the price of the first weak constraint's allowance to that of the others. -/
theorem dot_penalty_cons_weak (allowance : Nat) (constraint : Constraint)
    (constraints : List Constraint) (point : List Rat) (weak : ¬ constraint.Required) :
    dot (penalty allowance (constraint :: constraints)) point =
      constraint.weight * coordinates point allowance +
        dot (penalty (allowance + 1) constraints) point := by
  rw [penalty, if_neg weak, dot_plus, dot_unit, coordinates]

/-- The penalty is at least the cost where every weak constraint is within its allowance. Weights
are not negative, so an allowance that is larger only makes it dearer. -/
theorem costOf_le_penalty (allowance : Nat) (constraints : List Constraint) (point : List Rat)
    (allowed : Allowed allowance constraints point) :
    costOf constraints (coordinates point) ≤ dot (penalty allowance constraints) point := by
  induction constraints generalizing allowance with
  | nil => exact le_of_eq (dot_nil_left point).symm
  | cons constraint constraints inductionHypothesis =>
    unfold costOf at inductionHypothesis ⊢
    rw [List.map_cons, Rational.total]
    by_cases required : constraint.Required
    · rw [Allowed, weakOnes_cons_required constraint constraints required] at allowed
      rw [constraint.weight_eq_zero required, zero_mul, zero_add, penalty, if_pos required]
      exact inductionHypothesis allowance allowed
    · obtain ⟨first, rest⟩ :=
        (allowed_cons_weak allowance constraint constraints point required).mp allowed
      rw [dot_penalty_cons_weak allowance constraint constraints point required]
      exact add_le_add (mul_le_mul_of_nonneg_left first constraint.weight_nonneg)
        (inductionHypothesis (allowance + 1) rest)

/-- The penalty is exactly the cost where no allowance exceeds what is needed. A required constraint
has no weight and no allowance. -/
theorem penalty_eq_costOf (allowance : Nat) (constraints : List Constraint) (point : List Rat)
    (needed : ∀ n constraint, (weakOnes constraints)[n]? = some constraint →
      coordinates point (allowance + n) = constraint.violation (coordinates point)) :
    dot (penalty allowance constraints) point = costOf constraints (coordinates point) := by
  induction constraints generalizing allowance with
  | nil => exact dot_nil_left point
  | cons constraint constraints inductionHypothesis =>
    unfold costOf at inductionHypothesis ⊢
    rw [List.map_cons, Rational.total]
    by_cases required : constraint.Required
    · rw [weakOnes_cons_required constraint constraints required] at needed
      rw [constraint.weight_eq_zero required, zero_mul, zero_add, penalty, if_pos required]
      exact inductionHypothesis allowance needed
    · rw [weakOnes_cons_weak constraint constraints required] at needed
      rw [dot_penalty_cons_weak allowance constraint constraints point required]
      have first : coordinates point allowance = constraint.violation (coordinates point) :=
        needed 0 constraint rfl
      rw [first, inductionHypothesis (allowance + 1) fun n other found => by
        rw [Nat.add_assoc, Nat.add_comm 1]
        exact needed (n + 1) other found]

/-- The numbers of the unknowns stay below their count. The count is made by two nested folds,
neither of which ever lowers it, so it stays above every number that it has been raised over. -/
theorem lt_unknownCount (constraints : List Constraint) (constraint : Constraint)
    (present : constraint ∈ constraints) (term : Rat × Nat) (occurs : term ∈ constraint.terms) :
    term.2 < unknownCount constraints := by
  have inner (terms : List (Rat × Nat)) (start : Nat) :
      start ≤ terms.foldl (fun count term => max count (term.2 + 1)) start ∧
        ∀ term ∈ terms, term.2 < terms.foldl (fun count term => max count (term.2 + 1)) start := by
    induction terms generalizing start with
    | nil => simp
    | cons first terms inductionHypothesis =>
      obtain ⟨grows, covers⟩ := inductionHypothesis (max start (first.2 + 1))
      rw [List.foldl_cons, List.forall_mem_cons]
      exact ⟨by omega, by omega, covers⟩
  have outer (constraints : List Constraint) (start : Nat) :
      start ≤ constraints.foldl (fun count constraint =>
          constraint.terms.foldl (fun count term => max count (term.2 + 1)) count) start ∧
        ∀ constraint ∈ constraints, ∀ term ∈ constraint.terms,
          term.2 < constraints.foldl (fun count constraint =>
            constraint.terms.foldl (fun count term => max count (term.2 + 1)) count) start := by
    induction constraints generalizing start with
    | nil => simp
    | cons first constraints inductionHypothesis =>
      obtain ⟨innerGrows, innerCovers⟩ := inner first.terms start
      obtain ⟨grows, covers⟩ := inductionHypothesis
        (first.terms.foldl (fun count term => max count (term.2 + 1)) start)
      rw [List.foldl_cons, List.forall_mem_cons]
      exact ⟨le_trans innerGrows grows,
        fun term member => lt_of_lt_of_le (innerCovers term member) grows, covers⟩
  exact (outer constraints 0).2 constraint present term occurs

/-- An extension has a coordinate for every unknown, every allowance and the cost. -/
theorem length_extension (constraints : List Constraint) (x : Nat → Rat) :
    (extension constraints x).length = costIndex constraints + 1 := by
  simp only [extension, costIndex, List.length_append, List.length_map, List.length_range,
    List.length_singleton]

/-- A point that begins with the values of the unknowns has them as its coordinates. The unknowns
that occur have numbers below their count, so they are all among these values. -/
theorem agree_of_prefix (constraints : List Constraint) (x : Nat → Rat) (rest : List Rat) :
    Agree constraints (coordinates ((List.range (unknownCount constraints)).map x ++ rest)) x := by
  intro constraint present term occurs
  have bound : term.2 < unknownCount constraints :=
    lt_unknownCount constraints constraint present term occurs
  have early : term.2 < ((List.range (unknownCount constraints)).map x).length := by
    rwa [List.length_map, List.length_range]
  rw [coordinates, List.getD_append _ _ _ _ early, List.getD_eq_getElem _ _ early,
    List.getElem_map, List.getElem_range]

/-- An extension begins with the values of the unknowns. -/
theorem extension_agrees (constraints : List Constraint) (x : Nat → Rat) :
    Agree constraints (coordinates (extension constraints x)) x := by
  rw [extension, List.append_assoc]
  exact agree_of_prefix constraints x _

/-- Then come the allowances, which are as small as they can be. -/
theorem extension_allowance (constraints : List Constraint) (x : Nat → Rat) (n : Nat)
    (constraint : Constraint) (found : (weakOnes constraints)[n]? = some constraint) :
    coordinates (extension constraints x) (unknownCount constraints + n) =
      constraint.violation (coordinates (extension constraints x)) := by
  obtain ⟨bound, rfl⟩ := List.getElem?_eq_some_iff.mp found
  have present : (weakOnes constraints)[n] ∈ constraints :=
    (List.mem_filter.mp (List.getElem_mem bound)).1
  have skipped :
      ((List.range (unknownCount constraints)).map x).length = unknownCount constraints := by
    rw [List.length_map, List.length_range]
  rw [Constraint.violation_congr _ _ x (extension_agrees constraints x _ present), coordinates,
    extension, List.append_assoc, List.getD_append_right _ _ _ _ (by omega), skipped,
    Nat.add_sub_cancel_left, List.getD_append _ _ _ _ (by rwa [List.length_map]),
    List.getD_eq_getElem _ _ (by rwa [List.length_map]), List.getElem_map]

/-- The last coordinate is the cost. -/
theorem extension_last (constraints : List Constraint) (x : Nat → Rat) :
    (extension constraints x).getLastD 0 = costOf constraints x := by
  rw [extension, List.getLastD_concat]

/-- The last coordinate of a point with as many as the system has unknowns. -/
theorem getLastD_eq_coordinates (constraints : List Constraint) (point : List Rat)
    (length : point.length = costIndex constraints + 1) :
    point.getLastD 0 = coordinates point (costIndex constraints) := by
  rcases List.eq_nil_or_concat' point with rfl | ⟨front, last, rfl⟩
  · simp at length
  · have same : front.length = costIndex constraints := by simpa using length
    rw [List.getLastD_concat, coordinates, ← same, List.getD_append_right _ _ _ _ (le_refl _),
      Nat.sub_self, List.getD_cons_zero]

/-- The inequality on the cost. -/
theorem cost_holds_iff (constraints : List Constraint) (point : List Rat) :
    (Inequality.mk (plus (penalty (unknownCount constraints) constraints)
      (unit (costIndex constraints) (-1))) 0).Holds point ↔
      dot (penalty (unknownCount constraints) constraints) point ≤
        coordinates point (costIndex constraints) := by
  simp only [Inequality.Holds, dot_plus, dot_unit, coordinates]
  constructor <;> intro bounded <;> linarith

/-- A solution of the system satisfies the required constraints, and its last coordinate is at least
what its values cost. That coordinate is at least the penalty, and each allowance is at least what
its constraint is missed by. -/
theorem satisfies_of_feasible_system (constraints : List Constraint) (point : List Rat)
    (feasible : Feasible (system constraints) point) :
    Satisfies constraints (coordinates point) ∧
      costOf constraints (coordinates point) ≤ coordinates point (costIndex constraints) := by
  obtain ⟨penalised, costs⟩ := List.forall_mem_append.mp feasible
  obtain ⟨satisfies, allowed⟩ := (feasible_penalised_iff _ constraints point).mp penalised
  have paid := (cost_holds_iff constraints point).mp (costs _ List.mem_cons_self)
  exact ⟨satisfies, le_trans (costOf_le_penalty _ constraints point allowed) paid⟩

/-- Values that satisfy the required constraints extend to a solution of the system. The allowances
are exactly what the weak constraints are missed by, and the cost is exactly the penalty. -/
theorem feasible_extension (constraints : List Constraint) (x : Nat → Rat)
    (satisfies : Satisfies constraints x) :
    Feasible (system constraints) (extension constraints x) := by
  have agrees := extension_agrees constraints x
  have needed := extension_allowance constraints x
  refine List.forall_mem_append.mpr ⟨?_, List.forall_mem_singleton.mpr ?_⟩
  · rw [← Feasible, feasible_penalised_iff]
    exact ⟨(satisfies_congr constraints _ x agrees).mpr satisfies,
      fun n constraint found => le_of_eq (needed n constraint found).symm⟩
  · rw [cost_holds_iff, penalty_eq_costOf _ constraints _ needed,
      costOf_congr constraints _ x agrees,
      ← getLastD_eq_coordinates constraints _ (length_extension constraints x), extension_last]

/-- A solution of the system with the least last coordinate begins with values that cost least. -/
theorem cheapest_of_leastLast (constraints : List Constraint) (point : List Rat)
    (least : LeastLast (system constraints) (costIndex constraints + 1) point) :
    Cheapest constraints (coordinates point) := by
  obtain ⟨length, feasible, minimal⟩ := least
  obtain ⟨satisfies, paid⟩ := satisfies_of_feasible_system constraints point feasible
  refine ⟨satisfies, fun y other => ?_⟩
  calc costOf constraints (coordinates point)
      ≤ coordinates point (costIndex constraints) := paid
    _ = point.getLastD 0 := (getLastD_eq_coordinates constraints point length).symm
    _ ≤ (extension constraints y).getLastD 0 :=
        minimal _ (length_extension constraints y) (feasible_extension constraints y other)
    _ = costOf constraints y := extension_last constraints y

end CalendarDial.Linear
