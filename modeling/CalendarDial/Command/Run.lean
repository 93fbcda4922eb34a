import CalendarDial.Command.EventsFile
import CalendarDial.Command.Time
import CalendarDial.Outcome
import CalendarDial.Report.LayoutJson
import CalendarDial.Report.Lines

/-!
# The commands

The layout command reads the events file, finds the window of the time it is run for, and reports
the layout of what is visible. The window command reports the window alone. Either gives its whole
output or a reason for having none.
-/

namespace CalendarDial.Command

open CommandError (ofOverflow)

/-- What the layout command is asked for: the path of the events file, the time, an engine that
takes precedence over the settings, and the form of the report. -/
structure LayoutRequest where
  path : String
  time : Option String
  engine : Option Engine
  json : Bool

/-- The output of the layout command, given the content of the events file and the local clock, an
even layout being made with the given solver. -/
def layoutWith (solver : Linear.Solver) (request : LayoutRequest) (content : Option ByteArray)
    (settings : LayoutSettings) (clock : LocalClock) : Except CommandError String := do
  let events ← readEvents request.path content
  let time ← resolveTime clock request.time
  let window ← ofOverflow (Window.atTime time)
  let settings := { settings with primary := request.engine.getD settings.primary }
  let outcome ← ofOverflow (outcomeForWith solver settings window events)
  ofOverflow <|
    if request.json then Report.layoutJson window outcome else Report.layoutText window outcome

/-- The output of the layout command. -/
def layout (request : LayoutRequest) (content : Option ByteArray) (settings : LayoutSettings)
    (clock : LocalClock) : Except CommandError String :=
  layoutWith Bands.solver request content settings clock

/-- The output of the window command, given the local clock. -/
def window (time : Option String) (clock : LocalClock) : Except CommandError String := do
  let time ← resolveTime clock time
  let window ← ofOverflow (Window.atTime time)
  ofOverflow (Report.windowText window)

end CalendarDial.Command
