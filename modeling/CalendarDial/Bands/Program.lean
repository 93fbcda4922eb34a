import CalendarDial.Event
import CalendarDial.Linear.Constraint
import CalendarDial.PositionPairs

/-!
# Bands as the solution of a linear program

The even layout gives each event a half-open band on an axis that runs from zero to a fixed end: a
real start and a real size, at least one. Of two overlapping events the earlier one in the list lies
below the other. Beyond these requirements there are two preferences. Overlapping bands should be of
equal size, and all sizes together should fill the axis once for every event; a difference in size
weighs half as much as the same lack in the sum.

The program depends on the events only through how many there are and which of them overlap.
-/

namespace CalendarDial.Bands

open Linear (Constraint Strength)

/-- What the layout asks for: the number of events, the end of the axis, and the overlapping pairs
of positions, the smaller position first. -/
structure Program where
  count : Nat
  axis : Nat
  pairs : List (Nat × Nat)
deriving DecidableEq

/-- The program of a list of events on an axis. -/
def Program.ofEvents (events : List ClippedEvent) (axis : Nat) : Program :=
  ⟨events.length, axis, positionPairs Overlaps events⟩

/-- A start and a size for each position. Positions past the last event are of no interest. -/
structure Point where
  start : Nat → Rat
  size : Nat → Rat

/-- One requirement on a point. -/
inductive Requirement where
  | startAtLeastZero (i : Nat)
  | startAtMostAxis (i : Nat)
  | sizeAtLeastOne (i : Nat)
  | sizeAtMostAxis (i : Nat)
  | endAtMostAxis (i : Nat)
  | below (i j : Nat)
deriving DecidableEq

namespace Requirement

/-- The name under which a requirement is reported. -/
def label : Requirement → String
  | startAtLeastZero i => s!"start[{i}] >= 0"
  | startAtMostAxis i => s!"start[{i}] <= max"
  | sizeAtLeastOne i => s!"size[{i}] >= 1"
  | sizeAtMostAxis i => s!"size[{i}] <= max"
  | endAtMostAxis i => s!"start[{i}] + size[{i}] <= max"
  | below i j => s!"event {i} below event {j}"

/-- The point keeps the requirement on an axis with the given end. -/
def Holds (axis : Nat) (x : Point) : Requirement → Prop
  | startAtLeastZero i => 0 ≤ x.start i
  | startAtMostAxis i => x.start i ≤ axis
  | sizeAtLeastOne i => 1 ≤ x.size i
  | sizeAtMostAxis i => x.size i ≤ axis
  | endAtMostAxis i => x.start i + x.size i ≤ axis
  | below i j => x.start i + x.size i ≤ x.start j

end Requirement

/-- One thing that is asked of a point: something it must keep, or something it should come close
to. -/
inductive Demand where
  | keep (requirement : Requirement)
  | equalSizes (i j : Nat)
  | fullAxis
deriving DecidableEq

/-- The name under which a demand is reported. -/
def Demand.label : Demand → String
  | keep requirement => requirement.label
  | equalSizes i j => s!"size[{i}] == size[{j}]"
  | fullAxis => "sum(size) >= max * n"

namespace Program

/-- The requirements on an event alone. -/
def alone (i : Nat) : List Requirement :=
  [.startAtLeastZero i, .startAtMostAxis i, .sizeAtLeastOne i, .sizeAtMostAxis i, .endAtMostAxis i]

/-- What is asked of each event alone, event by event, and then of each of the given pairs: the
earlier event lies below the later one, and both should be of the same size. -/
def demandsOn (program : Program) (pairs : List (Nat × Nat)) : List Demand :=
  ((List.range program.count).flatMap fun i => (alone i).map .keep) ++
    pairs.flatMap fun (i, j) => [.keep (.below i j), .equalSizes i j]

/-- All demands, in the order in which they are made. The full axis comes last. -/
def demands (program : Program) : List Demand := program.demandsOn program.pairs ++ [.fullAxis]

/-- The point keeps every requirement. -/
def Feasible (program : Program) (x : Point) : Prop :=
  ∀ requirement, .keep requirement ∈ program.demands → requirement.Holds program.axis x

/-- The unknown that holds the start of event `i`. -/
def startIndex (_ : Program) (i : Nat) : Nat := i

/-- The unknown that holds the size of event `i`. -/
def sizeIndex (program : Program) (i : Nat) : Nat := program.count + i

/-- A requirement as a comparison of unknowns. -/
def requirementConstraint (program : Program) : Requirement → Constraint
  | .startAtLeastZero i => ⟨[(1, program.startIndex i)], .atLeast, 0, .required⟩
  | .startAtMostAxis i => ⟨[(1, program.startIndex i)], .atMost, program.axis, .required⟩
  | .sizeAtLeastOne i => ⟨[(1, program.sizeIndex i)], .atLeast, 1, .required⟩
  | .sizeAtMostAxis i => ⟨[(1, program.sizeIndex i)], .atMost, program.axis, .required⟩
  | .endAtMostAxis i =>
    ⟨[(1, program.startIndex i), (1, program.sizeIndex i)], .atMost, program.axis, .required⟩
  | .below i j =>
    ⟨[(1, program.startIndex i), (1, program.sizeIndex i), (-1, program.startIndex j)],
      .atMost, 0, .required⟩

/-- A demand as a constraint on the unknowns. -/
def constraint (program : Program) : Demand → Constraint
  | .keep requirement => program.requirementConstraint requirement
  | .equalSizes i j =>
    ⟨[(1, program.sizeIndex i), (-1, program.sizeIndex j)], .equal, 0,
      .weak (1 / 2) (by decide +kernel)⟩
  | .fullAxis =>
    ⟨(List.range program.count).map fun i => (1, program.sizeIndex i), .atLeast,
      program.axis * program.count, .weak 1 (by decide +kernel)⟩

/-- All demands as constraints, in the order in which they are made. -/
def constraints (program : Program) : List Constraint := program.demands.map program.constraint

/-- The values of the unknowns at a point. -/
def valuesAt (program : Program) (x : Point) (v : Nat) : Rat :=
  if v < program.count then x.start v else x.size (v - program.count)

/-- The point at which the unknowns have the given values. -/
def pointAt (program : Program) (values : Nat → Rat) : Point where
  start i := values (program.startIndex i)
  size i := values (program.sizeIndex i)

/-- The sum of the sizes. -/
def totalSize (program : Program) (x : Point) : Rat :=
  Rational.total ((List.range program.count).map x.size)

/-- What a point costs: half of every difference in size between overlapping events, and what the
sizes lack to fill the axis once for every event. -/
def cost (program : Program) (x : Point) : Rat :=
  Rational.total (program.pairs.map fun (i, j) => (x.size i - x.size j).abs / 2) +
    Rational.larger 0 (program.axis * program.count - program.totalSize x)

/-- A feasible point that costs no more than any other. -/
def Optimal (program : Program) (x : Point) : Prop :=
  program.Feasible x ∧ ∀ y, program.Feasible y → program.cost x ≤ program.cost y

end Program

end CalendarDial.Bands
