import Mathlib.Algebra.Order.Ring.Rat
import Mathlib.Data.List.Basic
import Mathlib.Tactic.Linarith
import CalendarDial.Linear.Exact

/-!
# What multipliers show

A sum of inequalities with multipliers that are nowhere negative holds wherever the inequalities do.
If that sum is a bound on the last unknown which a point attains, no solution has a smaller last
coordinate; if it is plainly false, there is no solution. This is all that a certificate has to be
trusted for, wherever it comes from.
-/

namespace CalendarDial.Linear

/-- Coefficients that are all zero add up to zero. Each product is zero, however far the two lists
go. -/
theorem dot_eq_zero (coefficients point : List Rat)
    (zeros : ∀ coefficient ∈ coefficients, coefficient = 0) : dot coefficients point = 0 := by
  induction coefficients generalizing point with
  | nil => exact dot_nil_left point
  | cons a coefficients inductionHypothesis =>
    cases point with
    | nil => exact dot_nil_right _
    | cons value point =>
      rw [dot_cons_cons, zeros a List.mem_cons_self, zero_mul, zero_add]
      exact inductionHypothesis point fun c present => zeros c (List.mem_cons_of_mem _ present)

/-- If only the last coefficient counts, only the last coordinate does. Everything before it is
multiplied by zero. -/
theorem dot_eq_last (coefficients point : List Rat) (length : coefficients.length = point.length)
    (zeros : ∀ coefficient ∈ coefficients.dropLast, coefficient = 0) :
    dot coefficients point = coefficients.getLastD 0 * point.getLastD 0 := by
  rcases List.eq_nil_or_concat' coefficients with rfl | ⟨front, last, rfl⟩
  · rw [dot_nil_left, List.getLastD_nil, zero_mul]
  · rcases List.eq_nil_or_concat' point with rfl | ⟨values, value, rfl⟩
    · simp at length
    · have same : front.length = values.length := by simpa using length
      have frontZero : dot front values = 0 :=
        dot_eq_zero front values (by simpa only [List.dropLast_concat] using zeros)
      have split : dot (front ++ [last]) (values ++ [value]) = dot front values + last * value := by
        simp only [dot, List.zipWith_append same, Rational.total_append, List.zipWith_cons_cons,
          List.zipWith_nil_left, Rational.total, add_zero]
      rw [split, frontZero, zero_add, List.getLastD_concat, List.getLastD_concat]

/-- A sum of inequalities that hold, with multipliers that are not negative, holds. Each inequality
holds after its multiplication, and adding one that holds to a sum that holds gives a sum that
holds. -/
theorem combination_holds (weighted : List (Rat × Inequality)) (point : List Rat)
    (nonnegative : ∀ pair ∈ weighted, 0 ≤ pair.1) (holds : ∀ pair ∈ weighted, pair.2.Holds point) :
    (combination weighted).Holds point := by
  induction weighted with
  | nil => exact le_of_eq (dot_nil_left point)
  | cons pair weighted inductionHypothesis =>
    have first : pair.1 * dot pair.2.coefficients point ≤ pair.1 * pair.2.bound :=
      mul_le_mul_of_nonneg_left (holds pair List.mem_cons_self)
        (nonnegative pair List.mem_cons_self)
    have rest : dot (combination weighted).coefficients point ≤ (combination weighted).bound :=
      inductionHypothesis (fun p present => nonnegative p (List.mem_cons_of_mem _ present))
        (fun p present => holds p (List.mem_cons_of_mem _ present))
    calc dot (combination (pair :: weighted)).coefficients point
        = pair.1 * dot pair.2.coefficients point +
            dot (combination weighted).coefficients point := by
          simp only [combination, Inequality.plus, Inequality.scale, dot_plus, dot_scale]
      _ ≤ pair.1 * pair.2.bound + (combination weighted).bound := add_le_add first rest

/-- A sum of the inequalities of a system holds at each of its solutions, whether or not there are
as many multipliers as inequalities. -/
theorem combination_zip_holds (multipliers : List Rat) (inequalities : List Inequality)
    (point : List Rat) (nonnegative : ∀ multiplier ∈ multipliers, 0 ≤ multiplier)
    (feasible : Feasible inequalities point) :
    (combination (multipliers.zip inequalities)).Holds point :=
  combination_holds _ point
    (fun _ present => nonnegative _ (List.of_mem_zip present).1)
    (fun _ present => feasible _ (List.of_mem_zip present).2)

/-- A valid certificate is right about its point. The multipliers combine the inequalities to a
lower bound on the last coordinate, which its point attains and every other solution obeys. -/
theorem Certificate.leastLast_of_valid (certificate : Certificate) (inequalities : List Inequality)
    (dimension : Nat) (valid : certificate.Valid inequalities dimension) :
    LeastLast inequalities dimension certificate.point := by
  obtain ⟨length, feasible, nonnegative, ⟨combinedLength, zeros, last⟩, attained⟩ := valid
  refine ⟨length, feasible, fun other otherLength otherFeasible => ?_⟩
  have bounded := combination_zip_holds certificate.multipliers inequalities other nonnegative
    otherFeasible
  rw [Inequality.Holds, dot_eq_last _ other (combinedLength.trans otherLength.symm) zeros, last,
    attained] at bounded
  linarith

/-- Inequalities that are refuted have no solution. At a solution the combination would hold, and it
says that zero is at most a negative number. -/
theorem not_feasible_of_refutes (multipliers : List Rat) (inequalities : List Inequality)
    (refuted : Refutes multipliers inequalities) (point : List Rat) :
    ¬ Feasible inequalities point := by
  obtain ⟨nonnegative, zeros, negative⟩ := refuted
  intro feasible
  have bounded := combination_zip_holds multipliers inequalities point nonnegative feasible
  rw [Inequality.Holds, dot_eq_zero _ point zeros] at bounded
  exact absurd negative (not_lt.mpr bounded)

end CalendarDial.Linear
