import CalendarDial.Bands.Program
import CalendarDial.Linear.Certificate
import CalendarDial.Linear.Penalties

/-!
# Finding an optimum by pivoting

The prices of the requirements form a linear program of their own: with a nonnegative price on each
requirement and a tension between minus a half and a half on each overlapping pair, the prices at
every start and at every size have to balance, and the axis should be paid for as little as
possible. This program has two rows for each event and starts from a known vertex, so it is walked
by pivots from vertex to vertex until no reduced cost is negative. The reduced costs of the bounds
on starts and sizes then are the starts and the sizes of an optimal placement.

Nothing here is relied upon: the walk ends in a proposal, and a proposal counts only once its
certificate has been checked.
-/

namespace CalendarDial.Bands

namespace Pivoting

/-- A vertex of the program of prices: for each basic unknown a row that expresses it through the
others, and the reduced costs. An unknown with an upper bound may have been replaced by its distance
from that bound. -/
structure Tableau where
  rows : Array (Array Rat)
  values : Array Rat
  basis : Array Nat
  reducedCosts : Array Rat
  upper : Array (Option Rat)
  reversed : Array Bool

namespace Tableau

/-- Replaces a nonbasic unknown by its distance from its upper bound. -/
def reverseColumn (t : Tableau) (column : Nat) (bound : Rat) : Tableau :=
  { t with
    values := t.values.mapIdx fun r value => value - (t.rows.getD r #[]).getD column 0 * bound
    rows := t.rows.map fun row => row.modify column (-·)
    reducedCosts := t.reducedCosts.modify column (-·)
    reversed := t.reversed.modify column (!·) }

/-- Replaces the basic unknown of a row by its distance from its upper bound. -/
def reverseRow (t : Tableau) (index : Nat) (bound : Rat) : Tableau :=
  let basic := t.basis.getD index 0
  { t with
    rows := t.rows.modify index fun row =>
      row.mapIdx fun column entry => if column = basic then entry else -entry
    values := t.values.modify index (bound - ·)
    reversed := t.reversed.modify basic (!·) }

/-- Brings an unknown into the basis in place of the one of the given row. -/
def pivot (t : Tableau) (index column : Nat) : Tableau :=
  let row := t.rows.getD index #[]
  let entry := row.getD column 0
  let unitRow := if entry = 1 then row else row.map (· / entry)
  let value := t.values.getD index 0 / entry
  let subtract (factor : Rat) (target : Array Rat) : Array Rat :=
    if factor = 0 then target
    else target.mapIdx fun c x =>
      let y := unitRow.getD c 0
      if y = 0 then x else x - factor * y
  { t with
    rows := t.rows.mapIdx fun r target =>
      if r = index then unitRow else subtract (target.getD column 0) target
    values := t.values.mapIdx fun r x =>
      if r = index then value else x - (t.rows.getD r #[]).getD column 0 * value
    basis := t.basis.setIfInBounds index column
    reducedCosts := subtract (t.reducedCosts.getD column 0) t.reducedCosts }

/-- The unknown to bring in: the one with the least reduced cost, or the first with a negative one.
The second rule never runs in circles. -/
def entering (t : Tableau) (steepest : Bool) : Option Nat :=
  if steepest then
    (t.reducedCosts.foldl
      (fun (best : Option (Nat × Rat) × Nat) cost =>
        let better := match best.1 with
          | none => decide (cost < 0)
          | some (_, least) => decide (cost < least)
        (if better then some (best.2, cost) else best.1, best.2 + 1))
      (none, 0)).1.map (·.1)
  else
    t.reducedCosts.findIdx? (· < 0)

/-- How the step that brings an unknown in ends. -/
inductive Stop where
  | ownBound (bound : Rat)
  | atZero (index : Nat)
  | atBound (index : Nat) (bound : Rat)

/-- The first thing to stop the growth of an unknown: its own bound, a basic unknown that falls to
zero, or one that grows to its bound. Among basic unknowns that stop it together the one with the
least number leaves. -/
def leaving (t : Tableau) (column : Nat) : Option (Rat × Stop) :=
  let own : Option (Rat × Stop) := (t.upper.getD column none).map fun u => (u, .ownBound u)
  let candidate (r : Nat) : Option (Rat × Stop) :=
    let entry := (t.rows.getD r #[]).getD column 0
    let value := t.values.getD r 0
    if 0 < entry then
      some (value / entry, .atZero r)
    else if entry < 0 then
      (t.upper.getD (t.basis.getD r 0) none).map fun u => ((u - value) / -entry, .atBound r u)
    else
      none
  let number : Stop → Nat
    | .ownBound _ => 0
    | .atZero r => t.basis.getD r 0 + 1
    | .atBound r _ => t.basis.getD r 0 + 1
  (List.range t.rows.size).foldl
    (fun best r =>
      match best, candidate r with
      | best, none => best
      | none, some c => some c
      | some b, some c =>
        if c.1 < b.1 ∨ (c.1 = b.1 ∧ number c.2 < number b.2) then some c else some b)
    own

/-- One step of the walk, or none at the end of it. -/
def step (t : Tableau) (steepest : Bool) : Option Tableau := do
  let column ← t.entering steepest
  let (_, stop) ← t.leaving column
  match stop with
  | .ownBound bound => pure (t.reverseColumn column bound)
  | .atZero index => pure (t.pivot index column)
  | .atBound index bound => pure ((t.reverseRow index bound).pivot index column)

/-- Walks until no reduced cost is negative. For as many steps as the tableau has columns, three
times over, the steepest unknown enters; after that the first one does. -/
def walk (t : Tableau) : Nat → Nat → Tableau
  | 0, _ => t
  | fuel + 1, steep =>
    match t.step (decide (0 < steep)) with
    | none => t
    | some next => next.walk fuel (steep - 1)

/-- The values of all unknowns at the vertex. -/
def solution (t : Tableau) : Array Rat :=
  let basic := (List.range t.basis.size).foldl
    (fun (all : Array Rat) r => all.setIfInBounds (t.basis.getD r 0) (t.values.getD r 0))
    (Array.replicate t.reducedCosts.size 0)
  basic.mapIdx fun column x =>
    if t.reversed.getD column false then (t.upper.getD column none).getD 0 - x else x

end Tableau

/-- The pairs that are not implied by two others with a position between them. They force the same
placements as all pairs do. -/
def directPairs (pairs : List (Nat × Nat)) : List (Nat × Nat) :=
  pairs.filter fun (i, j) => !pairs.any fun (a, k) => a == i && pairs.contains (k, j)

/-- The vertex from which the walk starts. Every event pays for its own size, either with the axis
or, where the tensions push it up already, with the bound on its size. -/
def start (program : Program) (direct : List (Nat × Nat)) : Tableau :=
  let n := program.count
  let width := 3 * n + direct.length + program.pairs.length
  let events := List.range n
  let axisColumn := fun i => i
  let startColumn := fun i => n + i
  let sizeColumn := fun i => 2 * n + i
  let directIn := fun i => direct.zipIdx.filterMap fun ((_, j), e) =>
    if j = i then some (3 * n + e) else none
  let directOut := fun i => direct.zipIdx.filterMap fun ((k, _), e) =>
    if k = i then some (3 * n + e) else none
  let tension := fun i => program.pairs.zipIdx.filterMap fun ((a, b), e) =>
    if a = i then some (3 * n + direct.length + e, (1 : Rat))
    else if b = i then some (3 * n + direct.length + e, (-1 : Rat))
    else none
  let need := fun i => (tension i).foldl (fun sum (_, sign) => sum + sign / 2) (1 : Rat)
  let fill := fun (entries : List (Nat × Rat)) =>
    entries.foldl (fun (row : Array Rat) (c, x) => row.modify c (· + x)) (Array.replicate width 0)
  let sizeRow := fun i =>
    let row := fill ([(axisColumn i, 1), (sizeColumn i, -1)] ++
      (directOut i).map (·, (1 : Rat)) ++ tension i)
    if 0 ≤ need i then row else row.map (-·)
  let startRow := fun i =>
    if 0 ≤ need i then
      fill ([(startColumn i, 1), (sizeColumn i, -1)] ++
        (directIn i).map (·, (1 : Rat)) ++ tension i)
    else
      fill ([(startColumn i, 1), (axisColumn i, -1)] ++
        (directOut i).map (·, (-1 : Rat)) ++ (directIn i).map (·, (1 : Rat)))
  let costs := fill (events.map (fun i => (axisColumn i, (program.axis : Rat))) ++
    events.map fun i => (sizeColumn i, (-1 : Rat)))
  let reducedCosts := events.foldl
    (fun (reduced : Array Rat) i =>
      let price : Rat := if 0 ≤ need i then program.axis else -1
      let row := sizeRow i
      reduced.mapIdx fun c x => x - price * row.getD c 0)
    costs
  { rows := (events.map sizeRow ++ events.map startRow).toArray
    values := (events.map (fun i => if 0 ≤ need i then need i else -need i) ++
      events.map fun i => if 0 ≤ need i then need i else 0).toArray
    basis := (events.map (fun i => if 0 ≤ need i then axisColumn i else sizeColumn i) ++
      events.map startColumn).toArray
    reducedCosts := reducedCosts
    upper := Array.replicate (3 * n + direct.length) none ++
      Array.replicate program.pairs.length (some 1)
    reversed := Array.replicate width false }

/-- The price of each requirement, read off the values at the last vertex. -/
def price (program : Program) (direct : List (Nat × Nat)) (values : Array Rat) :
    Requirement → Rat
  | .startAtLeastZero i => values.getD (program.count + i) 0
  | .sizeAtLeastOne i => values.getD (2 * program.count + i) 0
  | .endAtMostAxis i => values.getD i 0
  | .below i j =>
    match direct.findIdx? (· == (i, j)) with
    | some e => values.getD (3 * program.count + e) 0
    | none => 0
  | _ => 0

end Pivoting

/-- The program that the constraints were made from, if they were made from one. The last of them
asks for the full axis and mentions every size, and one weak equality compares the sizes of each
pair. -/
def Program.ofConstraints (constraints : List Linear.Constraint) : Program :=
  let weak := Linear.weakOnes constraints
  let count := (weak.getLast?.map fun whole => whole.terms.length).getD 0
  let target := (weak.getLast?.map Linear.Constraint.bound).getD 0
  { count
    axis := (target / count).floor.toNat
    pairs := weak.dropLast.filterMap fun equality =>
      match equality.terms with
      | [(_, first), (_, second)] => some (first - count, second - count)
      | _ => none }

/-- A placement and the multipliers that should show it to be optimal. -/
def Program.proposal (program : Program) : Linear.Certificate :=
  let direct := Pivoting.directPairs program.pairs
  let first := Pivoting.start program direct
  let last := first.walk (200 + 100 * first.reducedCosts.size) (3 * first.reducedCosts.size)
  let values := last.solution
  let x : Point := {
    start := fun i => last.reducedCosts.getD (program.count + i) 0
    size := fun i => 1 + last.reducedCosts.getD (2 * program.count + i) 0 }
  let price := Pivoting.price program direct values
  let ofPair : (Nat × Nat) × Nat → List Rat := fun ((i, j), k) =>
    let tension := values.getD (3 * program.count + direct.length + k) 0
    [price (.below i j), tension / 2, (1 - tension) / 2, 0]
  ⟨Linear.extension program.constraints (program.valuesAt x),
    (List.range program.count).flatMap (fun i => (Program.alone i).map price) ++
      program.pairs.zipIdx.flatMap ofPair ++ [1, 0, 1]⟩

/-- Advice on the constraints of a program. -/
def advice (constraints : List Linear.Constraint) : Linear.Certificate :=
  (Program.ofConstraints constraints).proposal

end CalendarDial.Bands
