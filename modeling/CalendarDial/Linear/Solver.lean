import CalendarDial.Linear.Constraint

/-!
# Incremental solvers

A solver takes constraints one at a time and may refuse one. At any time it can be asked for values
of the unknowns. What it does next depends on the constraints that it has accepted so far and on
nothing else, so a solver is described by two functions of them.

Nothing is built in about what a solver refuses or answers. What one may rely on is stated by the
properties at the end: that the answer satisfies what is required, that it costs least, that a
constraint is refused just when it contradicts the ones accepted before.
-/

namespace CalendarDial.Linear

/-- Why a solver refuses a constraint. -/
inductive Refusal where
  | unsatisfiable
  | duplicate
  | internal (reason : String)
deriving DecidableEq

/-- What a solver answers for the unknowns in the order of their numbers, none where the answer is
not a number. -/
structure Reading where
  values : List (Option Rat)

/-- The value of an unknown. One that the answer does not reach is zero. -/
def Reading.value? (reading : Reading) (v : Nat) : Option Rat := reading.values.getD v (some 0)

/-- A solver: whether it refuses the next constraint, and the values that it reports, both given the
constraints that it has accepted, in order. -/
structure Solver where
  refusal? : List Constraint → Constraint → Option Refusal
  reading : List Constraint → Reading

/-- The values are the reported ones for every unknown that occurs in the constraints. -/
def Reading.Agrees (reading : Reading) (constraints : List Constraint) (x : Nat → Rat) : Prop :=
  ∀ constraint ∈ constraints, ∀ term ∈ constraint.terms, reading.value? term.2 = some (x term.2)

namespace Solver

/-- The solver accepts the constraints, each after the ones before it. -/
def Accepts (solver : Solver) (constraints : List Constraint) : Prop :=
  ∀ before constraint after, constraints = before ++ constraint :: after →
    solver.refusal? before constraint = none

/-- Reported values satisfy every required constraint that was accepted. -/
def Sound (solver : Solver) : Prop :=
  ∀ constraints x, solver.Accepts constraints →
    (solver.reading constraints).Agrees constraints x → Satisfies constraints x

/-- Reported values satisfy every required constraint that was accepted, and no other such values
cost less. -/
def Minimises (solver : Solver) : Prop :=
  ∀ constraints x, solver.Accepts constraints →
    (solver.reading constraints).Agrees constraints x → Cheapest constraints x

/-- A constraint is refused just when it contradicts the accepted ones, and then for that reason. -/
def RefusesContradictions (solver : Solver) : Prop :=
  ∀ constraints next, Satisfiable constraints →
    (Satisfiable (constraints ++ [next]) → solver.refusal? constraints next = none) ∧
    (¬ Satisfiable (constraints ++ [next]) →
      solver.refusal? constraints next = some .unsatisfiable)

/-- Every unknown is reported to have a number as its value. -/
def ReportsNumbers (solver : Solver) : Prop :=
  ∀ constraints v, solver.Accepts constraints → (solver.reading constraints).value? v ≠ none

end Solver

end CalendarDial.Linear
