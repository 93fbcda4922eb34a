import CalendarDial.Command.EventsFile

/-!
# Where a dial gets its events

A dial asks a calendar for the events around a window. The calendar may refuse, may be out of reach,
or may break down while it answers.
-/

namespace CalendarDial.Refresh

/-- Why a calendar gives no events. -/
inductive SourceError where
  | permissionDenied
  | unavailable (reason : String)
deriving DecidableEq

/-- The wording under which a failure is reported. -/
def SourceError.message : SourceError → String
  | permissionDenied => "calendar access not granted"
  | unavailable reason => "calendar unavailable: " ++ reason

/-- What happens when a calendar is asked for events. -/
inductive Reply where
  | events (events : List RawEvent)
  | failure (error : SourceError)
  | crash
deriving DecidableEq

/-- An events file as a calendar: its events whatever the window, or the reason why it cannot be
read. -/
def Reply.ofFile (path : String) (content : Option ByteArray) : Reply :=
  match readEvents path content with
  | .ok found => .events found
  | .error error => .failure (.unavailable error.message)

end CalendarDial.Refresh
