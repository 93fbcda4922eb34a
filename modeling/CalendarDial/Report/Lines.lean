import CalendarDial.Calendar.Timestamp
import CalendarDial.Outcome

/-!
# Reports for people

A window is shown on the local clock: the date and time of its start, the time of its end, and the
offset in brackets when it is one that a clock can have, less than a day either way.

The report of a layout goes on with a line about the engine, then a line for each event with its
times on the local clock, its color and its levels, and at the end the violations.
-/

namespace CalendarDial.Report

/-- The offset of the window in whole seconds, if it is less than a day. -/
def windowOffset? (window : Window) : Option Int :=
  let seconds := Int.tdiv window.utcOffsetMs 1000
  if seconds.natAbs < 86400 then some seconds else none

/-- The line about the window. The end on the local clock is the start moved by the length of the
window. -/
def windowLine (window : Window) : Except Overflow String := do
  let start ← window.localStart
  let length ← Instant.sub window.endMs window.startMs
  let finish ← Instant.add start length
  let offset := match windowOffset? window with
    | some seconds => " (" ++ Calendar.offsetText seconds ++ ")"
    | none => ""
  pure <| "window " ++ Calendar.dateClockText start ++ " .. " ++ Calendar.clockText finish ++
    offset ++ "\n"

/-- The line about the window, and its ends in absolute time. -/
def windowText (window : Window) : Except Overflow String := do
  let line ← windowLine window
  pure <| line ++ "utc " ++ Calendar.utcText window.startMs ++ " .. " ++
    Calendar.utcText window.endMs ++ "\n"

/-- The line about the engine. -/
def engineLine (outcome : LayoutOutcome) : String :=
  "engine " ++ outcome.engine.name ++ (if outcome.fellBack then " after solver failure" else "") ++
    ", max level " ++ toString outcome.layout.maxLevel ++ "\n"

/-- The line about an event. -/
def eventLine (event : LeveledEvent) : String :=
  Calendar.clockText event.event.startMs ++ "-" ++ Calendar.clockText event.event.endMs ++ " #" ++
    String.ofList (Text.paddedHex 8 event.event.color) ++ " levels " ++ toString event.minLevel ++
    ".." ++ toString event.maxLevel ++ "\n"

/-- The line about a violation. -/
def violationLine (violation : Violation) : String := "violation: " ++ violation.message ++ "\n"

/-- The whole report of a layout. -/
def layoutText (window : Window) (outcome : LayoutOutcome) : Except Overflow String := do
  let line ← windowLine window
  let events := outcome.layout.events
  pure <| line ++ engineLine outcome ++
    (if events.isEmpty then "no visible events\n" else "") ++
    String.join (events.map eventLine) ++ String.join (outcome.violations.map violationLine)

end CalendarDial.Report
