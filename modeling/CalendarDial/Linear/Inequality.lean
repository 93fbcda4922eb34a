/-!
# Linear inequalities over the rationals

A linear combination of unknowns is given by its coefficients, a point by the values of the
unknowns, both as lists in the same order. A list may end early; the unknowns that it does not reach
have the coefficient or the value zero. Combinations are added and multiplied coefficient by
coefficient, and inequalities together with their bounds.

The sum of a list of numbers, and the greater and the smaller of two, are defined through addition
and the order of the rationals alone.
-/

namespace CalendarDial

namespace Rational

/-- The sum of a list of numbers. -/
def total : List Rat → Rat
  | [] => 0
  | a :: as => a + total as

/-- The greater of two numbers. -/
def larger (a b : Rat) : Rat := if a ≤ b then b else a

/-- The smaller of two numbers. -/
def smaller (a b : Rat) : Rat := if a ≤ b then a else b

/-- The sum of two lists together is the sum of their sums. -/
theorem total_append (as bs : List Rat) : total (as ++ bs) = total as + total bs := by
  induction as with
  | nil =>
    simp only [List.nil_append, total]
    grind
  | cons a as inductionHypothesis =>
    simp only [List.cons_append, total, inductionHypothesis]
    grind

end Rational

namespace Linear

/-- The value of a linear combination at a point. -/
def dot (coefficients point : List Rat) : Rat :=
  Rational.total (List.zipWith (· * ·) coefficients point)

/-- The sum of two linear combinations. -/
def plus (a b : List Rat) : List Rat := List.zipWithAll (fun x y => x.getD 0 + y.getD 0) a b

/-- The multiple of a linear combination. -/
def scale (factor : Rat) (coefficients : List Rat) : List Rat := coefficients.map (factor * ·)

/-- The combination in which only the unknown with the given number occurs. -/
def unit : Nat → Rat → List Rat
  | 0, coefficient => [coefficient]
  | i + 1, coefficient => 0 :: unit i coefficient

/-- The statement that a combination of the unknowns is at most a bound. -/
structure Inequality where
  coefficients : List Rat
  bound : Rat

/-- The inequality is true at a point. -/
def Inequality.Holds (inequality : Inequality) (point : List Rat) : Prop :=
  dot inequality.coefficients point ≤ inequality.bound

instance (inequality : Inequality) (point : List Rat) : Decidable (inequality.Holds point) :=
  inferInstanceAs (Decidable (_ ≤ _))

/-- The multiple of an inequality. -/
def Inequality.scale (factor : Rat) (inequality : Inequality) : Inequality :=
  ⟨Linear.scale factor inequality.coefficients, factor * inequality.bound⟩

/-- The sum of two inequalities. -/
def Inequality.plus (p q : Inequality) : Inequality :=
  ⟨Linear.plus p.coefficients q.coefficients, p.bound + q.bound⟩

/-- The sum of the inequalities, each with its own multiplier. -/
def combination : List (Rat × Inequality) → Inequality
  | [] => ⟨[], 0⟩
  | (factor, inequality) :: rest => (inequality.scale factor).plus (combination rest)

/-- Without coefficients nothing is added up. -/
theorem dot_nil_left (point : List Rat) : dot [] point = 0 := rfl

/-- Where all values are zero so is the combination. -/
theorem dot_nil_right (coefficients : List Rat) : dot coefficients [] = 0 := by
  simp only [dot, List.zipWith_nil_right, Rational.total]

/-- The first unknown adds its product and the others what they add without it. -/
theorem dot_cons_cons (a x : Rat) (coefficients point : List Rat) :
    dot (a :: coefficients) (x :: point) = a * x + dot coefficients point := by
  simp only [dot, List.zipWith_cons_cons, Rational.total]

/-- The combination without any unknown changes nothing when added on the left. -/
theorem plus_nil_left (b : List Rat) : plus [] b = b := by
  induction b with
  | nil => rfl
  | cons y b inductionHypothesis =>
    simp only [plus, List.nil_zipWithAll, List.map_cons, Option.getD_none, Option.getD_some] at *
    rw [inductionHypothesis, Rat.zero_add]

/-- The combination without any unknown changes nothing when added on the right. -/
theorem plus_nil_right (a : List Rat) : plus a [] = a := by
  induction a with
  | nil => rfl
  | cons x a inductionHypothesis =>
    simp only [plus, List.zipWithAll_nil, List.map_cons, Option.getD_none, Option.getD_some] at *
    rw [inductionHypothesis, Rat.add_zero]

/-- The first coefficients are added to each other. -/
theorem plus_cons_cons (x y : Rat) (a b : List Rat) :
    plus (x :: a) (y :: b) = (x + y) :: plus a b := rfl

/-- The value of a sum of combinations is the sum of their values. Where one of the lists ends, the
other one goes on alone, which is the sum with zeros. -/
theorem dot_plus (a b point : List Rat) : dot (plus a b) point = dot a point + dot b point := by
  induction a generalizing b point with
  | nil => rw [plus_nil_left, dot_nil_left, Rat.zero_add]
  | cons x a inductionHypothesis =>
    cases b with
    | nil => rw [plus_nil_right, dot_nil_left, Rat.add_zero]
    | cons y b =>
      cases point with
      | nil => rw [dot_nil_right, dot_nil_right, dot_nil_right, Rat.add_zero]
      | cons value point =>
        rw [plus_cons_cons, dot_cons_cons, dot_cons_cons, dot_cons_cons, inductionHypothesis]
        grind

/-- The value of a multiple of a combination is the multiple of its value. Each product is scaled,
and so is their sum. -/
theorem dot_scale (factor : Rat) (coefficients point : List Rat) :
    dot (scale factor coefficients) point = factor * dot coefficients point := by
  induction coefficients generalizing point with
  | nil => rw [scale, List.map_nil, dot_nil_left, Rat.mul_zero]
  | cons a coefficients inductionHypothesis =>
    cases point with
    | nil => rw [dot_nil_right, dot_nil_right, Rat.mul_zero]
    | cons value point =>
      have rest := inductionHypothesis point
      simp only [scale, List.map_cons, dot_cons_cons] at rest ⊢
      rw [rest]
      grind

/-- A single coefficient picks out its unknown, which counts as zero past the end of the point. -/
theorem dot_unit (i : Nat) (coefficient : Rat) (point : List Rat) :
    dot (unit i coefficient) point = coefficient * point.getD i 0 := by
  induction i generalizing point with
  | zero =>
    cases point with
    | nil => rw [dot_nil_right, List.getD_nil, Rat.mul_zero]
    | cons value point =>
      rw [unit, dot_cons_cons, dot_nil_left, List.getD_cons_zero, Rat.add_zero]
  | succ i inductionHypothesis =>
    cases point with
    | nil => rw [dot_nil_right, List.getD_nil, Rat.mul_zero]
    | cons value point =>
      rw [unit, dot_cons_cons, inductionHypothesis, List.getD_cons_succ]
      grind

end Linear

end CalendarDial
