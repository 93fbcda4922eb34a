import CalendarDial.Decimal.Notation
import CalendarDial.Json.DataModel
import CalendarDial.Wedge

/-!
# A layout for programs

The report is one JSON object in the spread form: the window, the engine, whether the engine tried
first failed, the highest level, the events with their wedges, and the violations when there are
any.
-/

namespace CalendarDial.Report

open Json (Coded)
open Json.Tree (ofNat ofMembers)

/-- The number of a double. -/
def ofFloat (x : Float) : Json.Tree := .number (Decimal.floatText x)

/-- The object of a wedge. -/
def wedgeTree (wedge : Wedge Float) : Json.Tree := ofMembers [
  ("start_degrees", ofFloat wedge.startDegrees), ("sweep_degrees", ofFloat wedge.sweepDegrees),
  ("inner_fraction", ofFloat wedge.innerFraction), ("outer_fraction", ofFloat wedge.outerFraction)]

/-- The object of an event: its own members, then its wedge. -/
def eventTree (globalMax : Nat) (event : LeveledEvent) : Except Overflow Json.Tree := do
  let wedge ← event.wedge globalMax
  let members := match Coded.toTree event with
    | .object members => members
    | _ => []
  pure (.object (members ++ [("wedge".toList, wedgeTree wedge)]))

/-- The object of the whole report. -/
def layoutTree (window : Window) (outcome : LayoutOutcome) : Except Overflow Json.Tree := do
  let events ← outcome.layout.events.mapM (eventTree outcome.layout.maxLevel)
  pure <| ofMembers <|
    [("window", Coded.toTree window), ("engine", Coded.toTree outcome.engine),
      ("fell_back", .bool outcome.fellBack), ("max_level", ofNat outcome.layout.maxLevel),
      ("events", .array events)] ++
    (if outcome.violations.isEmpty then []
      else [("violations", Coded.toTree outcome.violations)])

/-- The text of the report. -/
def layoutJson (window : Window) (outcome : LayoutOutcome) : Except Overflow String := do
  let tree ← layoutTree window outcome
  pure (String.ofList (tree.spread 0) ++ "\n")

end CalendarDial.Report
