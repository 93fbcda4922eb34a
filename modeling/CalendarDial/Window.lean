import CalendarDial.Event

/-!
# The window on display

The dial shows twelve hours, from the top of the current local hour. A window is kept in absolute
time together with the offset of local time, and clipping an event to the window also moves it to
local time.

The hour is found on the local clock, so that a zone whose offset is not a whole number of hours
still sees its own hours. An event that covers the whole window would paint a full ring and is left
out, as is one of which nothing is visible.
-/

namespace CalendarDial

/-- An instant in absolute time together with the local clock's distance from it, east positive. -/
structure ZonedTime where
  utcMs : Int
  offsetSeconds : Int
deriving DecidableEq

/-- A stretch of absolute time and the local clock's distance from absolute time. -/
structure Window where
  startMs : Int
  endMs : Int
  utcOffsetMs : Int
deriving DecidableEq

namespace Window

/-- The twelve hours from `startMs` on. -/
def startingAt (startMs utcOffsetMs : Int) : Except Overflow Window := do
  let endMs ← Instant.add startMs Instant.turn
  pure ⟨startMs, endMs, utcOffsetMs⟩

/-- The twelve hours from the top of the local hour that contains `now`. The division floors, also
before 1970. -/
def atTime (now : ZonedTime) : Except Overflow Window := do
  let utcOffsetMs := now.offsetSeconds * 1000
  let localMs ← Instant.add now.utcMs utcOffsetMs
  let startMs ← Instant.sub (localMs / Instant.hour * Instant.hour) utcOffsetMs
  startingAt startMs utcOffsetMs

/-- The start of the window on the local clock. -/
def localStart (window : Window) : Except Overflow Int :=
  Instant.add window.startMs window.utcOffsetMs

/-- The part of an event inside the window, on the local clock. There is none when the event and the
window have no instant in common, and when the event covers the window from end to end. -/
def clip (window : Window) (event : RawEvent) : Except Overflow (Option ClippedEvent) :=
  let startMs := max event.startMs window.startMs
  let endMs := min event.endMs window.endMs
  if window.startMs < endMs ∧ startMs < window.endMs ∧ startMs < endMs ∧
      ¬ (startMs = window.startMs ∧ endMs = window.endMs) then do
    let localStartMs ← Instant.add startMs window.utcOffsetMs
    let localEndMs ← Instant.add endMs window.utcOffsetMs
    pure (some ⟨localStartMs, localEndMs, event.color⟩)
  else
    pure none

/-- The visible parts of the events, in the order of the events. -/
def clipAll (window : Window) (events : List RawEvent) : Except Overflow (List ClippedEvent) := do
  let parts ← events.mapM window.clip
  pure (parts.filterMap id)

end Window

end CalendarDial
