import CalendarDial.Linear.Certificate
import CalendarDial.Linear.Inequality

/-!
# Elimination of unknowns

A system of inequalities is solved by removing its unknowns from the first to the last. An
inequality bounds the first unknown from above or from below, according to the sign of its
coefficient, or does not mention it. Each lower bound paired with each upper bound gives an
inequality in the other unknowns, and together with the inequalities that do not mention the first
unknown these describe exactly the points that can be completed.

On the way back each unknown gets the greatest of its lower bounds, as soon as it has any. The last
unknown is the first to get a value, at a time when nothing else constrains it, so it gets the least
value that it has at any solution.
-/

namespace CalendarDial.Linear

namespace Inequality

/-- The coefficient of the first unknown. -/
def head (inequality : Inequality) : Rat := inequality.coefficients.headD 0

/-- The inequality without its first unknown. -/
def tail (inequality : Inequality) : Inequality :=
  ⟨inequality.coefficients.tail, inequality.bound⟩

/-- What the inequality requires of the first unknown when the others have the given values: its
coefficient times the first unknown is at most this. -/
def room (inequality : Inequality) (rest : List Rat) : Rat :=
  inequality.bound - dot inequality.coefficients.tail rest

end Inequality

/-- The inequalities that bound the first unknown from below. -/
def lowerBounds (inequalities : List Inequality) : List Inequality :=
  inequalities.filter fun q => decide (q.head < 0)

/-- The inequalities that bound the first unknown from above. -/
def upperBounds (inequalities : List Inequality) : List Inequality :=
  inequalities.filter fun q => decide (0 < q.head)

/-- The inequalities in the other unknowns that hold exactly where a value of the first unknown can
be found. -/
def eliminate (inequalities : List Inequality) : List Inequality :=
  (inequalities.filter fun q => decide (q.head = 0)).map Inequality.tail ++
    (lowerBounds inequalities).flatMap fun low =>
      (upperBounds inequalities).map fun high =>
        (low.tail.scale high.head).plus (high.tail.scale (-low.head))

/-- The greatest of the numbers, if there is one. -/
def greatest : List Rat → Option Rat
  | [] => none
  | a :: as => some (as.foldl Rational.larger a)

/-- The least of the numbers, if there is one. -/
def least : List Rat → Option Rat
  | [] => none
  | a :: as => some (as.foldl Rational.smaller a)

/-- A value of the first unknown that goes with the given values of the others: its greatest lower
bound, failing that its least upper bound, and zero if it is free. -/
def completion (inequalities : List Inequality) (rest : List Rat) : Rat :=
  match greatest ((lowerBounds inequalities).map fun q => q.room rest / q.head) with
  | some value => value
  | none => (least ((upperBounds inequalities).map fun q => q.room rest / q.head)).getD 0

/-- A solution of the inequalities in the given number of unknowns, if there is one. -/
def solution : Nat → List Inequality → Option (List Rat)
  | 0, inequalities => if ∀ q ∈ inequalities, 0 ≤ q.bound then some [] else none
  | dimension + 1, inequalities =>
    (solution dimension (eliminate inequalities)).map fun rest =>
      completion inequalities rest :: rest

/-- A feasible point with the least last coordinate. The proposed certificate is believed only if it
is valid; otherwise the unknowns are eliminated, which is slow but always decides. -/
def leastLast (inequalities : List Inequality) (dimension : Nat) (proposal : Certificate) :
    Option (List Rat) :=
  if proposal.Valid inequalities dimension then
    some proposal.point
  else
    solution dimension inequalities

end CalendarDial.Linear
