import CalendarDial.Linear.Constraint

/-!
# Constraints as inequalities

Every comparison says the same as one or two inequalities of one kind: a combination of unknowns is
at most a bound. An equality takes two of them. Rows keep the terms of the constraint; for the
elimination of unknowns a row is written out with a coefficient for every unknown.
-/

namespace CalendarDial.Linear

/-- The statement that a combination of unknowns is at most a bound. -/
structure Row where
  terms : List (Rat × Nat)
  bound : Rat

namespace Row

/-- The row is true where the unknowns have the given values. -/
def Holds (row : Row) (x : Nat → Rat) : Prop := valueOf row.terms x ≤ row.bound

/-- The row with its coefficients in the order of the unknowns. -/
def inequality (row : Row) : Inequality :=
  ⟨row.terms.foldr (fun (a, v) rest => plus (unit v a) rest) [], row.bound⟩

end Row

/-- The combination with the opposite sign. -/
def opposite (terms : List (Rat × Nat)) : List (Rat × Nat) := terms.map fun (a, v) => (-a, v)

/-- What a constraint says, in rows. -/
def Constraint.rows : Constraint → List Row
  | ⟨terms, .atMost, bound, _⟩ => [⟨terms, bound⟩]
  | ⟨terms, .equal, bound, _⟩ => [⟨terms, bound⟩, ⟨opposite terms, -bound⟩]
  | ⟨terms, .atLeast, bound, _⟩ => [⟨opposite terms, -bound⟩]

/-- The rows of all required constraints. -/
def requiredRows (constraints : List Constraint) : List Row :=
  (constraints.filter fun constraint => decide constraint.Required).flatMap Constraint.rows

/-- A number greater than that of any unknown in the constraints. -/
def unknownCount (constraints : List Constraint) : Nat :=
  constraints.foldl
    (fun count constraint =>
      constraint.terms.foldl (fun count term => max count (term.2 + 1)) count)
    0

end CalendarDial.Linear
