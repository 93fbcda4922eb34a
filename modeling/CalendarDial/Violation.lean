import CalendarDial.Event
import CalendarDial.PositionPairs

/-!
# What a layout must not do

A band must not be upside down, no band may reach above the highest level of the layout, and two
events that overlap in time may not have a level in common. The check lists every violation once:
first those of single events, event by event, then those of pairs in lexicographic order.
-/

namespace CalendarDial

/-- A broken rule, with the positions and levels that show it. -/
inductive Violation where
  | invertedBand (index minLevel maxLevel : Nat)
  | aboveGlobalMax (index maxLevel globalMax : Nat)
  | sharedLevel (first second : Nat)
deriving DecidableEq

/-- The wording under which a violation is reported. -/
def Violation.message : Violation → String
  | invertedBand index minLevel maxLevel =>
    s!"event {index} has min level {minLevel} above max level {maxLevel}"
  | aboveGlobalMax index maxLevel globalMax =>
    s!"event {index} reaches level {maxLevel}, above global max {globalMax}"
  | sharedLevel first second =>
    s!"events {first} and {second} overlap in time and share a level"

namespace LeveledEvent

/-- The violations that one event shows by itself. -/
def violations (globalMax index : Nat) (event : LeveledEvent) : List Violation :=
  (if event.maxLevel < event.minLevel then
    [.invertedBand index event.minLevel event.maxLevel] else []) ++
  (if globalMax < event.maxLevel then
    [.aboveGlobalMax index event.maxLevel globalMax] else [])

/-- Two events that overlap in time and have a level in common. -/
def Clashes (a b : LeveledEvent) : Prop := Overlaps a b ∧ a.SharesLevel b

instance (a b : LeveledEvent) : Decidable (Clashes a b) :=
  inferInstanceAs (Decidable (_ ∧ _))

end LeveledEvent

/-- Every violation of the layout. -/
def Layout.violations (layout : Layout) : List Violation :=
  (layout.events.zipIdx.flatMap fun (event, index) =>
    event.violations layout.maxLevel index) ++
  (positionPairs LeveledEvent.Clashes layout.events).map fun (first, second) =>
    .sharedLevel first second

end CalendarDial
