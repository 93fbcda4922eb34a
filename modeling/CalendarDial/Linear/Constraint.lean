import CalendarDial.Linear.Inequality

/-!
# Constraints and their strengths

A constraint compares a linear combination of numbered unknowns with a bound. A required constraint
has to hold. A weak one may be missed, and then costs its weight for every unit by which it is
missed. Among the values of the unknowns at which all required constraints hold, those that cost
least are wanted.
-/

namespace CalendarDial.Linear

/-- How a combination compares with a bound. -/
inductive Relation where
  | atMost
  | equal
  | atLeast
deriving DecidableEq

/-- Whether a constraint has to hold, or else what it costs to miss it by one. -/
inductive Strength where
  | required
  | weak (weight : Rat) (nonnegative : 0 ≤ weight)

/-- A comparison of a combination of unknowns, given by the coefficients and the numbers of its
unknowns, with a bound. An unknown may occur more than once. -/
structure Constraint where
  terms : List (Rat × Nat)
  relation : Relation
  bound : Rat
  strength : Strength

/-- The value of a combination where the unknowns have the given values. -/
def valueOf (terms : List (Rat × Nat)) (x : Nat → Rat) : Rat :=
  Rational.total (terms.map fun (a, v) => a * x v)

namespace Constraint

/-- The constraint must not be missed. -/
def Required : Constraint → Prop
  | ⟨_, _, _, .required⟩ => True
  | ⟨_, _, _, .weak _ _⟩ => False

instance : DecidablePred Required
  | ⟨_, _, _, .required⟩ => .isTrue trivial
  | ⟨_, _, _, .weak _ _⟩ => .isFalse id

/-- What it costs to miss the constraint by one. There is no price for a required one. -/
def weight : Constraint → Rat
  | ⟨_, _, _, .required⟩ => 0
  | ⟨_, _, _, .weak weight _⟩ => weight

/-- The comparison is true. -/
def Holds (x : Nat → Rat) : Constraint → Prop
  | ⟨terms, .atMost, bound, _⟩ => valueOf terms x ≤ bound
  | ⟨terms, .equal, bound, _⟩ => valueOf terms x = bound
  | ⟨terms, .atLeast, bound, _⟩ => bound ≤ valueOf terms x

instance (x : Nat → Rat) : DecidablePred (Holds x)
  | ⟨terms, .atMost, bound, _⟩ => inferInstanceAs (Decidable (valueOf terms x ≤ bound))
  | ⟨terms, .equal, bound, _⟩ => inferInstanceAs (Decidable (valueOf terms x = bound))
  | ⟨terms, .atLeast, bound, _⟩ => inferInstanceAs (Decidable (bound ≤ valueOf terms x))

/-- By how much the comparison is missed, zero where it is true. -/
def violation (x : Nat → Rat) : Constraint → Rat
  | ⟨terms, .atMost, bound, _⟩ => Rational.larger 0 (valueOf terms x - bound)
  | ⟨terms, .equal, bound, _⟩ => (valueOf terms x - bound).abs
  | ⟨terms, .atLeast, bound, _⟩ => Rational.larger 0 (bound - valueOf terms x)

end Constraint

/-- All required constraints hold. -/
def Satisfies (constraints : List Constraint) (x : Nat → Rat) : Prop :=
  ∀ constraint ∈ constraints, constraint.Required → constraint.Holds x

instance (constraints : List Constraint) (x : Nat → Rat) : Decidable (Satisfies constraints x) :=
  inferInstanceAs (Decidable (∀ _ ∈ _, _ → _))

/-- Some values satisfy all required constraints. -/
def Satisfiable (constraints : List Constraint) : Prop := ∃ x, Satisfies constraints x

/-- What the values cost: the weighted sum of what they miss the weak constraints by. -/
def costOf (constraints : List Constraint) (x : Nat → Rat) : Rat :=
  Rational.total (constraints.map fun constraint => constraint.weight * constraint.violation x)

/-- The values satisfy all required constraints and cost no more than any others that do. -/
def Cheapest (constraints : List Constraint) (x : Nat → Rat) : Prop :=
  Satisfies constraints x ∧
    ∀ y, Satisfies constraints y → costOf constraints x ≤ costOf constraints y

end CalendarDial.Linear
