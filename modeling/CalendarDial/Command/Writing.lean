import CalendarDial.Command.Run

/-!
# The layout command at work

A report is written piece by piece, and what has been written stays written, also when the command
fails afterwards. So the command is a computation that carries the text written so far and may end
with an error at any step. Its report is the same as the one that is put together as a whole.
-/

namespace CalendarDial.Command

open CommandError (ofOverflow)

/-- A command at work: it extends the text written so far, and it may end with an error. -/
abbrev Work := EStateM CommandError String

namespace Work

/-- Writes one more piece. -/
def write (piece : String) : Work Unit := modify (· ++ piece)

/-- Takes a step that writes nothing. -/
def take {α : Type} : Except CommandError α → Work α
  | .ok value => pure value
  | .error error => throw error

/-- Writes pieces in order. -/
def writeAll : List String → Work Unit
  | [] => pure ()
  | piece :: pieces => do
    write piece
    writeAll pieces

end Work

open Work (write take writeAll)

/-- Writes a layout for people, line by line. -/
def writeLayoutText (window : Window) (outcome : LayoutOutcome) : Work Unit := do
  write (← take (ofOverflow (Report.windowLine window)))
  write (Report.engineLine outcome)
  if outcome.layout.events.isEmpty then
    write "no visible events\n"
  writeAll (outcome.layout.events.map Report.eventLine)
  writeAll (outcome.violations.map Report.violationLine)

/-- Writes a layout for programs. The whole object is there before its text is begun. -/
def writeLayoutJson (window : Window) (outcome : LayoutOutcome) : Work Unit := do
  let tree ← take (ofOverflow (Report.layoutTree window outcome))
  write (String.ofList (tree.spread 0))
  write "\n"

/-- The layout command, given the content of the events file and the local clock, an even layout
being made with the given solver. -/
def writeLayoutWith (solver : Linear.Solver) (request : LayoutRequest)
    (content : Option ByteArray) (settings : LayoutSettings) (clock : LocalClock) : Work Unit := do
  let events ← take (readEvents request.path content)
  let time ← take (resolveTime clock request.time)
  let window ← take (ofOverflow (Window.atTime time))
  let settings := { settings with primary := request.engine.getD settings.primary }
  let outcome ← take (ofOverflow (outcomeForWith solver settings window events))
  if request.json then
    writeLayoutJson window outcome
  else
    writeLayoutText window outcome

end CalendarDial.Command
