import CalendarDial.Linear.Elimination
import CalendarDial.Linear.Penalties
import CalendarDial.Linear.Raising
import CalendarDial.Linear.Solver

/-!
# An exact solver

This solver computes with rational numbers and never with approximations. It refuses a required
constraint that contradicts the accepted ones, and it reports values that cost least.

Both questions can always be decided by eliminating unknowns, which is slow. Before that the solver
tries what it has been advised: values, or multipliers that show that there are none, or a point
with a certificate. Advice makes it faster and can never make it wrong.
-/

namespace CalendarDial.Linear

/-- The multipliers combine the inequalities into one that says that zero is at most a negative
number. -/
def Refutes (multipliers : List Rat) (inequalities : List Inequality) : Prop :=
  let combined := combination (multipliers.zip inequalities)
  (∀ multiplier ∈ multipliers, 0 ≤ multiplier) ∧
    (∀ coefficient ∈ combined.coefficients, coefficient = 0) ∧ combined.bound < 0

instance (multipliers : List Rat) (inequalities : List Inequality) :
    Decidable (Refutes multipliers inequalities) :=
  inferInstanceAs (Decidable ((∀ _ ∈ _, _) ∧ (∀ _ ∈ _, _) ∧ _))

/-- Some values satisfy the required constraints. -/
def satisfiable (constraints : List Constraint) : Bool :=
  let rows := requiredRows constraints
  let lows := Raising.lows (unknownCount constraints) rows
  if Satisfies constraints (Raising.suggestion lows) then
    true
  else
    let inequalities := rows.map Row.inequality
    if Refutes (Raising.multipliers lows rows) inequalities then
      false
    else
      (solution (unknownCount constraints) inequalities).isSome

/-- The cheapest values, together with the allowances and the cost. -/
def cheapest (advice : Certificate) (constraints : List Constraint) : Option (List Rat) :=
  leastLast (system constraints) (costIndex constraints + 1) advice

/-- The solver that asks for advice when it is asked for values. -/
def exactSolver (adviser : List Constraint → Certificate) : Solver where
  refusal? constraints next :=
    if next.Required ∧ ¬ satisfiable (constraints ++ [next]) then some .unsatisfiable else none
  reading constraints := ⟨((cheapest (adviser constraints) constraints).getD []).map some⟩

end CalendarDial.Linear
