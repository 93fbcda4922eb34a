import Mathlib.Algebra.Order.Field.Basic
import Mathlib.Tactic.Linarith
import CalendarDial.Linear.Certificate
import CalendarDial.Linear.Elimination
import CalendarDial.Proofs.Rational

/-!
# Elimination always decides

A point can be completed by a value of the first unknown exactly when it satisfies the inequalities
that remain once that unknown is eliminated. Removing the unknowns one after the other therefore
finds a solution whenever there is one. The value of the last unknown is chosen before any other, as
its greatest lower bound, so no solution has a smaller one.
-/

namespace CalendarDial.Linear

/-- Going through a list and keeping the better of two numbers each time ends with one of the
numbers that is as good as any of them, provided that being as good is transitive. A number that is
passed over is no better than the one kept in its place, and the last one is as good as that. -/
theorem foldl_best (better : Rat → Rat → Rat) (AsGood : Rat → Rat → Prop)
    (reflexive : ∀ a, AsGood a a) (transitive : ∀ a b c, AsGood a b → AsGood b c → AsGood a c)
    (choice : ∀ a b, better a b = a ∨ better a b = b)
    (left : ∀ a b, AsGood (better a b) a) (right : ∀ a b, AsGood (better a b) b)
    (start : Rat) (rest : List Rat) :
    rest.foldl better start ∈ start :: rest ∧
      ∀ b ∈ start :: rest, AsGood (rest.foldl better start) b := by
  induction rest generalizing start with
  | nil => simpa using reflexive start
  | cons next rest inductionHypothesis =>
    obtain ⟨member, best⟩ := inductionHypothesis (better start next)
    have kept : AsGood (rest.foldl better (better start next)) (better start next) :=
      best _ List.mem_cons_self
    rw [List.foldl_cons]
    constructor
    · rcases List.mem_cons.mp member with equal | later
      · rw [equal]
        rcases choice start next with chosen | chosen <;> simp [chosen]
      · exact List.mem_cons_of_mem _ (List.mem_cons_of_mem _ later)
    · intro b present
      rcases List.mem_cons.mp present with rfl | present
      · exact transitive _ _ _ kept (left _ _)
      · rcases List.mem_cons.mp present with rfl | present
        · exact transitive _ _ _ kept (right _ _)
        · exact best b (List.mem_cons_of_mem _ present)

/-- The greatest of the numbers is one of them, and none of them exceeds it. -/
theorem greatest_spec (numbers : List Rat) (a : Rat) (found : greatest numbers = some a) :
    a ∈ numbers ∧ ∀ b ∈ numbers, b ≤ a := by
  cases numbers with
  | nil => cases found
  | cons start rest =>
    obtain rfl := Option.some.inj found
    exact foldl_best Rational.larger (· ≥ ·) le_refl (fun _ _ _ => ge_trans) max_choice
      le_max_left le_max_right start rest

/-- The least of the numbers is one of them, and none of them falls below it. -/
theorem least_spec (numbers : List Rat) (a : Rat) (found : least numbers = some a) :
    a ∈ numbers ∧ ∀ b ∈ numbers, a ≤ b := by
  cases numbers with
  | nil => cases found
  | cons start rest =>
    obtain rfl := Option.some.inj found
    exact foldl_best Rational.smaller (· ≤ ·) le_refl (fun _ _ _ => le_trans) min_choice
      min_le_left min_le_right start rest

/-- Only an empty list has no greatest number. -/
theorem greatest_eq_none_iff (numbers : List Rat) : greatest numbers = none ↔ numbers = [] := by
  cases numbers <;> simp [greatest]

/-- Only an empty list has no least number. -/
theorem least_eq_none_iff (numbers : List Rat) : least numbers = none ↔ numbers = [] := by
  cases numbers <;> simp [least]

namespace Inequality

/-- An inequality bounds the first unknown by its room, which is what the other unknowns leave of
the bound. -/
theorem holds_cons_iff (inequality : Inequality) (value : Rat) (rest : List Rat) :
    inequality.Holds (value :: rest) ↔ inequality.head * value ≤ inequality.room rest := by
  obtain ⟨coefficients, bound⟩ := inequality
  cases coefficients with
  | nil => simp [Holds, head, room, dot_nil_left]
  | cons a coefficients =>
    simp only [Holds, head, room, dot_cons_cons, List.headD_cons, List.tail_cons]
    constructor <;> intro bounded <;> linarith

/-- Without its first unknown the inequality says that there is room for nothing. -/
theorem tail_holds_iff (inequality : Inequality) (rest : List Rat) :
    inequality.tail.Holds rest ↔ 0 ≤ inequality.room rest := by
  simp only [Holds, tail, room]
  constructor <;> intro bounded <;> linarith

/-- A lower and an upper bound of the first unknown leave something between them exactly when the
inequality made of both holds. The multipliers are the two coefficients of that unknown without
their signs, so that it cancels. -/
theorem between_iff (low high : Inequality) (rest : List Rat) :
    ((low.tail.scale high.head).plus (high.tail.scale (-low.head))).Holds rest ↔
      low.head * high.room rest ≤ high.head * low.room rest := by
  simp only [Holds, plus, scale, tail, room, dot_plus, dot_scale]
  constructor <;> intro bounded <;> linarith

end Inequality

/-- What is left of the inequalities holds exactly when those that do not mention the first unknown
hold and every lower bound leaves room below every upper bound. These are the two kinds of
inequalities that elimination makes. -/
theorem feasible_eliminate_iff (inequalities : List Inequality) (rest : List Rat) :
    Feasible (eliminate inequalities) rest ↔
      (∀ q ∈ inequalities, q.head = 0 → 0 ≤ q.room rest) ∧
        ∀ low ∈ inequalities, low.head < 0 → ∀ high ∈ inequalities, 0 < high.head →
          low.head * high.room rest ≤ high.head * low.room rest := by
  simp only [Feasible, eliminate, lowerBounds, upperBounds, List.mem_append, List.mem_map,
    List.mem_flatMap, List.mem_filter, decide_eq_true_eq]
  constructor
  · intro holds
    constructor
    · intro q present free
      exact (q.tail_holds_iff rest).mp (holds _ (.inl ⟨q, ⟨present, free⟩, rfl⟩))
    · intro low lowPresent negative high highPresent positive
      exact (low.between_iff high rest).mp
        (holds _ (.inr ⟨low, ⟨lowPresent, negative⟩, high, ⟨highPresent, positive⟩, rfl⟩))
  · rintro ⟨free, between⟩ _ listed
    rcases listed with ⟨q, ⟨present, zero⟩, rfl⟩ |
      ⟨low, ⟨lowPresent, negative⟩, high, ⟨highPresent, positive⟩, rfl⟩
    · exact (q.tail_holds_iff rest).mpr (free q present zero)
    · exact (low.between_iff high rest).mpr
        (between low lowPresent negative high highPresent positive)

/-- Whatever the first unknown is, the other values satisfy what is left of the inequalities. Every
lower bound is at most that value and every upper bound at least that value, so the lower ones are
at most the upper ones. -/
theorem feasible_eliminate_of_feasible (inequalities : List Inequality) (value : Rat)
    (rest : List Rat) (feasible : Feasible inequalities (value :: rest)) :
    Feasible (eliminate inequalities) rest := by
  have bounded : ∀ q ∈ inequalities, q.head * value ≤ q.room rest := fun q present =>
    (q.holds_cons_iff value rest).mp (feasible q present)
  rw [feasible_eliminate_iff]
  constructor
  · intro q present zero
    have room : q.head * value ≤ q.room rest := bounded q present
    rwa [zero, zero_mul] at room
  · intro low lowPresent negative high highPresent positive
    calc low.head * high.room rest
        ≤ low.head * (high.head * value) :=
          mul_le_mul_of_nonpos_left (bounded high highPresent) negative.le
      _ = high.head * (low.head * value) := mul_left_comm _ _ _
      _ ≤ high.head * low.room rest :=
          mul_le_mul_of_nonneg_left (bounded low lowPresent) positive.le

/-- The completion is at least every lower bound of the first unknown. It is the greatest of them if
there are any. -/
theorem lower_bound_le_completion (inequalities : List Inequality) (rest : List Rat)
    (low : Inequality) (present : low ∈ inequalities) (negative : low.head < 0) :
    low.room rest / low.head ≤ completion inequalities rest := by
  have listed : low.room rest / low.head ∈
      (lowerBounds inequalities).map fun q => q.room rest / q.head :=
    List.mem_map.mpr ⟨low, List.mem_filter.mpr ⟨present, decide_eq_true negative⟩, rfl⟩
  unfold completion
  split
  next value found => exact (greatest_spec _ value found).2 _ listed
  next missing =>
    rw [(greatest_eq_none_iff _).mp missing] at listed
    exact absurd listed List.not_mem_nil

/-- The completion is at most every upper bound of the first unknown, if the rest satisfies what is
left of the inequalities: each lower bound then is. Without a lower bound it is the least of the
upper ones. -/
theorem completion_le_upper_bound (inequalities : List Inequality) (rest : List Rat)
    (feasible : Feasible (eliminate inequalities) rest)
    (high : Inequality) (present : high ∈ inequalities) (positive : 0 < high.head) :
    completion inequalities rest ≤ high.room rest / high.head := by
  have between := ((feasible_eliminate_iff inequalities rest).mp feasible).2
  have listed : high.room rest / high.head ∈
      (upperBounds inequalities).map fun q => q.room rest / q.head :=
    List.mem_map.mpr ⟨high, List.mem_filter.mpr ⟨present, decide_eq_true positive⟩, rfl⟩
  unfold completion
  split
  next value found =>
    obtain ⟨low, lowListed, rfl⟩ := List.mem_map.mp (greatest_spec _ value found).1
    obtain ⟨lowPresent, negative⟩ := List.mem_filter.mp lowListed
    have below := between low lowPresent (of_decide_eq_true negative) high present positive
    rw [div_le_iff_of_neg (of_decide_eq_true negative), div_mul_eq_mul_div,
      div_le_iff₀ positive]
    linarith
  next =>
    cases found : least ((upperBounds inequalities).map fun q => q.room rest / q.head) with
    | some value => exact (least_spec _ value found).2 _ listed
    | none =>
      rw [(least_eq_none_iff _).mp found] at listed
      exact absurd listed List.not_mem_nil

/-- Values that satisfy what is left of the inequalities are completed to a solution. The completion
lies between the bounds that the others set, and the inequalities without the first unknown hold
already. -/
theorem feasible_completion (inequalities : List Inequality) (rest : List Rat)
    (feasible : Feasible (eliminate inequalities) rest) :
    Feasible inequalities (completion inequalities rest :: rest) := by
  intro q present
  rw [q.holds_cons_iff]
  rcases lt_trichotomy q.head 0 with negative | zero | positive
  · have above := lower_bound_le_completion inequalities rest q present negative
    rw [div_le_iff_of_neg negative] at above
    linarith
  · rw [zero, zero_mul]
    exact ((feasible_eliminate_iff inequalities rest).mp feasible).1 q present zero
  · have below := completion_le_upper_bound inequalities rest feasible q present positive
    rw [le_div_iff₀ positive] at below
    linarith

/-- A solution that is found has the wanted number of coordinates and satisfies the inequalities.
The values found for the later unknowns satisfy what elimination left, and each step completes
them. -/
theorem solution_feasible (dimension : Nat) (inequalities : List Inequality) (point : List Rat)
    (found : solution dimension inequalities = some point) :
    point.length = dimension ∧ Feasible inequalities point := by
  induction dimension generalizing inequalities point with
  | zero =>
    obtain ⟨bounds, rfl⟩ : (∀ q ∈ inequalities, 0 ≤ q.bound) ∧ [] = point := by
      simpa [solution] using found
    refine ⟨rfl, fun q present => ?_⟩
    rw [Inequality.Holds, dot_nil_right]
    exact bounds q present
  | succ dimension inductionHypothesis =>
    obtain ⟨rest, restFound, rfl⟩ := Option.map_eq_some_iff.mp found
    obtain ⟨length, feasible⟩ := inductionHypothesis (eliminate inequalities) rest restFound
    exact ⟨congrArg (· + 1) length, feasible_completion inequalities rest feasible⟩

/-- A solution is found whenever there is one. Without its first value it satisfies what elimination
leaves, so the search goes on until no unknown is left, and then only bounds that hold remain. -/
theorem solution_isSome_of_feasible (dimension : Nat) (inequalities : List Inequality)
    (point : List Rat) (length : point.length = dimension)
    (feasible : Feasible inequalities point) : (solution dimension inequalities).isSome := by
  induction dimension generalizing inequalities point with
  | zero =>
    obtain rfl := List.length_eq_zero_iff.mp length
    have bounds : ∀ q ∈ inequalities, 0 ≤ q.bound := fun q present => by
      simpa only [Inequality.Holds, dot_nil_right] using feasible q present
    rw [solution, if_pos bounds]
    rfl
  | succ dimension inductionHypothesis =>
    obtain ⟨value, rest, rfl⟩ := List.exists_cons_of_length_eq_add_one length
    have shorter := inductionHypothesis (eliminate inequalities) rest (Nat.succ.inj length)
      (feasible_eliminate_of_feasible inequalities value rest feasible)
    rw [solution, Option.isSome_map]
    exact shorter

/-- The only unknown gets its least possible value, if it is bounded from below at all: its greatest
lower bound, which no solution is below. Without a lower bound the unknown could be taken below the
floor. -/
theorem completion_least (inequalities : List Inequality) (floor value : Rat)
    (bounded : ∀ other, Feasible inequalities [other] → floor ≤ other)
    (feasible : Feasible inequalities [value]) : completion inequalities [] ≤ value := by
  have rooms : ∀ q ∈ inequalities, q.head * value ≤ q.room [] := fun q present =>
    (q.holds_cons_iff value []).mp (feasible q present)
  unfold completion
  split
  next least found =>
    obtain ⟨low, listed, rfl⟩ := List.mem_map.mp (greatest_spec _ least found).1
    obtain ⟨present, negative⟩ := List.mem_filter.mp listed
    rw [div_le_iff_of_neg (of_decide_eq_true negative), mul_comm]
    exact rooms low present
  next missing =>
    have none_below : lowerBounds inequalities = [] :=
      List.map_eq_nil_iff.mp ((greatest_eq_none_iff _).mp missing)
    have lower : Feasible inequalities [min value (floor - 1)] := by
      intro q present
      have nonnegative : 0 ≤ q.head := by
        by_contra negative
        have listed : q ∈ lowerBounds inequalities :=
          List.mem_filter.mpr ⟨present, decide_eq_true (not_le.mp negative)⟩
        rw [none_below] at listed
        exact absurd listed List.not_mem_nil
      exact (q.holds_cons_iff _ []).mpr
        (le_trans (mul_le_mul_of_nonneg_left (min_le_left _ _) nonnegative) (rooms q present))
    have contradiction : floor ≤ floor - 1 := le_trans (bounded _ lower) (min_le_right _ _)
    linarith

/-- No solution has a smaller last coordinate than the one that is found, if the last coordinate is
bounded from below at all. The last unknown is the only one left when it gets its value. Every
solution of what elimination leaves can be completed to one of the whole, so the bound holds there
too and the induction goes through. -/
theorem solution_least (dimension : Nat) (inequalities : List Inequality) (floor : Rat)
    (bounded : ∀ other : List Rat, other.length = dimension + 1 → Feasible inequalities other →
      floor ≤ other.getLastD 0)
    (point other : List Rat) (found : solution (dimension + 1) inequalities = some point)
    (length : other.length = dimension + 1) (feasible : Feasible inequalities other) :
    point.getLastD 0 ≤ other.getLastD 0 := by
  induction dimension generalizing inequalities point other with
  | zero =>
    obtain ⟨rest, restFound, rfl⟩ := Option.map_eq_some_iff.mp found
    obtain rfl := List.length_eq_zero_iff.mp (solution_feasible 0 _ rest restFound).1
    obtain ⟨value, rfl⟩ := List.length_eq_one_iff.mp length
    exact completion_least inequalities floor value (fun other => bounded [other] rfl) feasible
  | succ dimension inductionHypothesis =>
    obtain ⟨rest, restFound, rfl⟩ := Option.map_eq_some_iff.mp found
    obtain ⟨value, others, rfl⟩ := List.exists_cons_of_length_eq_add_one length
    have restLength : rest.length = dimension + 1 := (solution_feasible _ _ rest restFound).1
    have othersLength : others.length = dimension + 1 := Nat.succ.inj length
    have last_cons (first : Rat) (tail : List Rat) (long : tail.length = dimension + 1) :
        (first :: tail).getLastD 0 = tail.getLastD 0 := by
      cases tail with
      | nil => simp at long
      | cons second tail => rfl
    rw [last_cons _ rest restLength, last_cons value others othersLength]
    refine inductionHypothesis (eliminate inequalities) ?_ rest others restFound othersLength
      (feasible_eliminate_of_feasible inequalities value others feasible)
    intro shorter shorterLength shorterFeasible
    have lifted := bounded (completion inequalities shorter :: shorter)
      (congrArg (· + 1) shorterLength) (feasible_completion inequalities shorter shorterFeasible)
    rwa [last_cons _ shorter shorterLength] at lifted

end CalendarDial.Linear
