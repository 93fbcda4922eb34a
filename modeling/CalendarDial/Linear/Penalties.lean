import CalendarDial.Linear.Rows

/-!
# Weak constraints as inequalities

To look for the cheapest values with linear inequalities alone, every weak constraint gets one more
unknown, its allowance, and its rows may be missed by as much. The cost is the last unknown, and is
at least the weighted sum of the allowances. Values are cheapest when this last unknown is least.

The unknowns of the constraints come first, then the allowances in the order of the weak
constraints, then the cost.
-/

namespace CalendarDial.Linear

/-- The row, which may be missed by as much as the unknown with the given number. -/
def Inequality.allow (allowance : Nat) (inequality : Inequality) : Inequality :=
  ⟨Linear.plus inequality.coefficients (unit allowance (-1)), inequality.bound⟩

/-- The unknown is not negative. -/
def notNegative (v : Nat) : Inequality := ⟨unit v (-1), 0⟩

/-- The inequalities of the constraints, the first weak one having the given allowance. -/
def penalised (allowance : Nat) : List Constraint → List Inequality
  | [] => []
  | constraint :: constraints =>
    let inequalities := constraint.rows.map Row.inequality
    if constraint.Required then
      inequalities ++ penalised allowance constraints
    else
      inequalities.map (Inequality.allow allowance) ++
        notNegative allowance :: penalised (allowance + 1) constraints

/-- The weighted sum of the allowances, the first weak constraint having the given one. -/
def penalty (allowance : Nat) : List Constraint → List Rat
  | [] => []
  | constraint :: constraints =>
    if constraint.Required then penalty allowance constraints
    else plus (unit allowance constraint.weight) (penalty (allowance + 1) constraints)

/-- The weak constraints, in order. -/
def weakOnes (constraints : List Constraint) : List Constraint :=
  constraints.filter fun constraint => decide ¬ constraint.Required

/-- The unknown that holds the cost. -/
def costIndex (constraints : List Constraint) : Nat :=
  unknownCount constraints + (weakOnes constraints).length

/-- All inequalities: those of the constraints, and one that keeps the cost above the penalty. -/
def system (constraints : List Constraint) : List Inequality :=
  penalised (unknownCount constraints) constraints ++
    [⟨plus (penalty (unknownCount constraints) constraints) (unit (costIndex constraints) (-1)), 0⟩]

/-- The unknowns of the system where those of the constraints have the given values, with no more
allowed than is needed. -/
def extension (constraints : List Constraint) (x : Nat → Rat) : List Rat :=
  (List.range (unknownCount constraints)).map x ++
    (weakOnes constraints).map (·.violation x) ++ [costOf constraints x]

end CalendarDial.Linear
