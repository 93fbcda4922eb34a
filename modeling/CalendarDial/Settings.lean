import CalendarDial.Bands.Placement

/-!
# Settings

What a user can set: how events are laid out, and how often a running dial looks at the clock. The
engine that is tried first and what to do when it fails have names, by which settings and reports
speak of them.
-/

namespace CalendarDial

/-- Who lays the events out. -/
inductive Engine where
  | constraint
  | greedy
deriving DecidableEq

/-- The name of the engine. -/
def Engine.name : Engine → String
  | constraint => "constraint"
  | greedy => "greedy"

/-- What to show when the even layout fails. -/
inductive FailurePolicy where
  | greedy
  | empty
deriving DecidableEq

/-- The name of the policy. -/
def FailurePolicy.name : FailurePolicy → String
  | greedy => "greedy"
  | empty => "empty"

/-- The engine tried first, what to do when it fails, and the extent of the even layout's axis. -/
structure LayoutSettings where
  primary : Engine := .constraint
  onSolverFailure : FailurePolicy := .greedy
  maxLevel : Nat := Bands.defaultAxis
deriving DecidableEq

/-- The layout settings, and the seconds between two looks at the clock. -/
structure Settings where
  layout : LayoutSettings := {}
  tickSeconds : Nat := 60
deriving DecidableEq

end CalendarDial
