import Mathlib.Algebra.BigOperators.Group.List.Basic
import Mathlib.Algebra.Order.Group.Abs
import Mathlib.Algebra.Order.Ring.Rat
import CalendarDial.Linear.Inequality

/-!
# Sums and bounds in the language of ordered fields

The sum, the greater, the smaller and the absolute value that the dial computes with are the usual
ones, so that everything known about ordered fields applies to them.
-/

namespace CalendarDial.Rational

/-- The greater of two numbers is the maximum. The two definitions choose alike, also between equal
numbers. -/
theorem larger_eq_max (a b : Rat) : larger a b = max a b := rfl

/-- The absolute value is the usual one. Both agree on numbers of either sign. -/
theorem abs_eq (a : Rat) : a.abs = |a| := by
  rcases le_total 0 a with nonnegative | nonpositive
  · rw [Rat.abs_of_nonneg nonnegative, abs_of_nonneg nonnegative]
  · rw [Rat.abs_of_nonpos nonpositive, abs_of_nonpos nonpositive]

/-- The sum of a list is the usual one. Both add from the front, ending in zero. -/
theorem total_eq_sum (numbers : List Rat) : total numbers = numbers.sum := by
  induction numbers with
  | nil => rfl
  | cons a numbers inductionHypothesis =>
    rw [total, List.sum_cons, inductionHypothesis]

/-- A list put together from parts adds up to the sum of the parts' sums. By induction on the
elements, since the sum of two lists in a row is the sum of their sums. -/
theorem total_flatMap {α : Type} (elements : List α) (part : α → List Rat) :
    total (elements.flatMap part) = total (elements.map fun element => total (part element)) := by
  induction elements with
  | nil => rfl
  | cons element elements inductionHypothesis =>
    rw [List.flatMap_cons, total_append, List.map_cons, total, inductionHypothesis]

/-- Nothing adds up to nothing. By induction on the elements, each of which adds zero. -/
theorem total_map_zero {α : Type} (elements : List α) : total (elements.map fun _ => 0) = 0 := by
  induction elements with
  | nil => rfl
  | cons element elements inductionHypothesis =>
    rw [List.map_cons, total, inductionHypothesis, add_zero]

/-- A sum does not depend on the order of its terms. That is known of the usual sum, which this one
is. -/
theorem total_map_perm {α : Type} (f : α → Rat) (first second : List α)
    (reordered : first.Perm second) : total (first.map f) = total (second.map f) := by
  rw [total_eq_sum, total_eq_sum, (reordered.map f).sum_eq]

/-- A sum is put together from the terms with a property and those without. The two parts together
are a reordering of the whole list. -/
theorem total_filter_add_total_filter_not {α : Type} (f : α → Rat) (property : α → Prop)
    [DecidablePred property] (elements : List α) :
    total ((elements.filter fun element => property element).map f) +
      total ((elements.filter fun element => ¬ property element).map f) =
        total (elements.map f) := by
  rw [← total_append, ← List.map_append]
  apply total_map_perm
  simpa only [decide_not] using
    List.filter_append_perm (fun element => decide (property element)) elements

end CalendarDial.Rational
