import CalendarDial.Linear.Rows

/-!
# Raising unknowns as little as possible

Many systems of rows can be settled by raising unknowns one row at a time. A row in which one
unknown has a negative coefficient bounds that unknown from below, given lower bounds of the others;
one without negative coefficients may be missed however small the unknowns are. The first kind
suggests values to try, the second kind a combination of rows that nothing satisfies.

Nothing here is relied upon: suggestions count only once they have been checked.
-/

namespace CalendarDial.Linear

/-- A lower bound of an unknown, with the numbers of the rows that it is a sum of. -/
structure LowerBound where
  value : Rat
  reasons : List Nat

namespace Raising

/-- The least value of a combination of unknowns with known lower bounds, and the reasons. -/
def least (lows : Array (Option LowerBound)) (terms : List (Rat × Nat)) : Rat × List Nat :=
  terms.foldl
    (fun (sum, reasons) (a, v) =>
      match lows.getD v none with
      | some low => (sum + a * low.value, low.reasons ++ reasons)
      | none => (sum, reasons))
    (0, [])

/-- Raises the one unknown that the row bounds from below, if it is too low. -/
def raise (lows : Array (Option LowerBound)) (numbered : Row × Nat) : Array (Option LowerBound) :=
  let (row, number) := numbered
  let (negative, others) := row.terms.partition fun (a, _) => decide (a < 0)
  match negative with
  | [(a, v)] =>
    let (sum, reasons) := least lows others
    let value := (row.bound - sum) / a
    match lows.getD v none with
    | some low => if low.value < value then lows.setIfInBounds v (some ⟨value, number :: reasons⟩)
      else lows
    | none => lows.setIfInBounds v (some ⟨value, number :: reasons⟩)
  | _ => lows

/-- The rows that together cannot be kept, if a row is missed by the lower bounds alone. -/
def conflict? (lows : Array (Option LowerBound)) (numbered : Row × Nat) : Option (List Nat) :=
  let (row, number) := numbered
  let (sum, reasons) := least lows row.terms
  if row.terms.all (fun (a, _) => decide (0 ≤ a)) ∧ row.bound < sum then some (number :: reasons)
  else none

/-- The lower bounds after every row has been looked at once, in order. -/
def lows (count : Nat) (rows : List Row) : Array (Option LowerBound) :=
  rows.zipIdx.foldl raise (Array.replicate count none)

/-- Values to try. -/
def suggestion (lows : Array (Option LowerBound)) (v : Nat) : Rat :=
  ((lows.getD v none).map LowerBound.value).getD 0

/-- Multipliers of the rows to try. -/
def multipliers (lows : Array (Option LowerBound)) (rows : List Row) : List Rat :=
  let reasons := (rows.zipIdx.findSome? (conflict? lows)).getD []
  (List.range rows.length).map fun number => (reasons.count number : Nat)

end Raising

end CalendarDial.Linear
