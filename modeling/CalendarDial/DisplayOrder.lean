import CalendarDial.Event

/-!
# The order in which events are placed

Both layout engines place events in the order in which they are given, so this order decides who
ends up on the inner rings. Long events come first, then medium ones, then short ones; within a
class the smaller color, then the earlier end, then the later start comes first. Events that agree
in all four are equal, so the order is total and leaves nothing to the sorting method.
-/

namespace CalendarDial

/-- The coarse length classes, from the one that is placed first. -/
inductive DurationBucket where
  | long
  | medium
  | short
deriving DecidableEq

namespace DurationBucket

/-- Three hours and more are long, one hour and more medium, all else short. -/
def ofDuration (duration : Int) : DurationBucket :=
  if 3 * Instant.hour ≤ duration then long
  else if Instant.hour ≤ duration then medium
  else short

/-- The place of the class in the display order. -/
def rank : DurationBucket → Nat
  | long => 0
  | medium => 1
  | short => 2

/-- The name of the class. -/
def name : DurationBucket → String
  | long => "Long"
  | medium => "Medium"
  | short => "Short"

end DurationBucket

namespace ClippedEvent

/-- The length class of the event, from the exact difference of its ends. -/
def bucket (event : ClippedEvent) : DurationBucket :=
  DurationBucket.ofDuration (event.endMs - event.startMs)

/-- Length class, then color, then end ascending, then start descending. -/
def displayOrder (a b : ClippedEvent) : Ordering :=
  (compare a.bucket.rank b.bucket.rank).then <|
  (compare a.color b.color).then <|
  (compare a.endMs b.endMs).then (compare b.startMs a.startMs)

/-- The display order of two events whose lengths 64 bits hold. -/
def compareForDisplay (a b : ClippedEvent) : Except Overflow Ordering := do
  let _ ← a.duration
  let _ ← b.duration
  pure (a.displayOrder b)

end ClippedEvent

/-- The events in display order, equal ones in the order in which they came. Sorting compares every
event of a list of two or more, so there every length has to fit in 64 bits; a single event is
compared with nothing. -/
def sortForDisplay (events : List ClippedEvent) : Except Overflow (List ClippedEvent) := do
  if 2 ≤ events.length then
    let _ ← events.mapM ClippedEvent.duration
    pure (events.mergeSort fun a b => (a.displayOrder b).isLE)
  else
    pure events

/-- The length classes of the events, each of whose lengths has to fit in 64 bits. -/
def displayBuckets (events : List ClippedEvent) : Except Overflow (List DurationBucket) := do
  let durations ← events.mapM ClippedEvent.duration
  pure (durations.map DurationBucket.ofDuration)

end CalendarDial
