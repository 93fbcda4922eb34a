import CalendarDial.Linear.Inequality

/-!
# Certified minimal points

Among the points at which all given inequalities hold, one with the least last coordinate is wanted.
A claim that a point is such a one can be checked without knowing how it was found: the inequalities
hold there, and multipliers that are nowhere negative combine them into a bound from below on the
last coordinate that the point attains. Nothing is assumed of the point or of the multipliers.
-/

namespace CalendarDial.Linear

/-- All the inequalities hold at the point. -/
def Feasible (inequalities : List Inequality) (point : List Rat) : Prop :=
  ∀ inequality ∈ inequalities, inequality.Holds point

instance (inequalities : List Inequality) (point : List Rat) :
    Decidable (Feasible inequalities point) :=
  inferInstanceAs (Decidable (∀ _ ∈ _, _))

/-- A point, given by all its coordinates, that is feasible and has the least last coordinate among
the feasible points with as many coordinates. -/
def LeastLast (inequalities : List Inequality) (dimension : Nat) (point : List Rat) : Prop :=
  point.length = dimension ∧ Feasible inequalities point ∧
    ∀ other : List Rat, other.length = dimension → Feasible inequalities other →
      point.getLastD 0 ≤ other.getLastD 0

/-- A point together with multipliers, one for each inequality. -/
structure Certificate where
  point : List Rat
  multipliers : List Rat

/-- The combined inequality says that the last of `dimension` unknowns, negated, is at most the
bound: its coefficients are zero but for the last, which is minus one. -/
def BoundsLast (dimension : Nat) (combined : Inequality) : Prop :=
  combined.coefficients.length = dimension ∧
    (∀ coefficient ∈ combined.coefficients.dropLast, coefficient = 0) ∧
    combined.coefficients.getLastD 0 = -1

instance (dimension : Nat) (combined : Inequality) : Decidable (BoundsLast dimension combined) :=
  inferInstanceAs (Decidable (_ ∧ (∀ _ ∈ _, _) ∧ _))

/-- The certificate shows that its point has the least last coordinate. -/
def Certificate.Valid (certificate : Certificate) (inequalities : List Inequality)
    (dimension : Nat) : Prop :=
  let combined := combination (certificate.multipliers.zip inequalities)
  certificate.point.length = dimension ∧
    Feasible inequalities certificate.point ∧
    (∀ multiplier ∈ certificate.multipliers, 0 ≤ multiplier) ∧
    BoundsLast dimension combined ∧
    combined.bound = -(certificate.point.getLastD 0)

instance (certificate : Certificate) (inequalities : List Inequality) (dimension : Nat) :
    Decidable (certificate.Valid inequalities dimension) :=
  inferInstanceAs (Decidable (_ ∧ _ ∧ (∀ _ ∈ _, _) ∧ _ ∧ _))

end CalendarDial.Linear
