import CalendarDial.Calendar.Forms
import CalendarDial.Command.Error

/-!
# The time a command is run for

A time is written either as a timestamp of RFC 3339, whose offset is kept, or as a distance from
now. A text is taken as a distance only when it is not a timestamp. What is not written with an
offset gets the one that the local zone has at the very instant that is meant, which need not be the
one that it has now.
-/

namespace CalendarDial

/-- The clock where a command runs: the present instant, and the offset in seconds that the local
zone has at each instant. -/
structure LocalClock where
  nowMs : Int
  offsetAt : Int → Int

namespace LocalClock

/-- An instant as the clock shows it. -/
def timeAt (clock : LocalClock) (utcMs : Int) : ZonedTime := ⟨utcMs, clock.offsetAt utcMs⟩

/-- The time now. -/
def now (clock : LocalClock) : ZonedTime := clock.timeAt clock.nowMs

end LocalClock

/-- A time as written: a timestamp, or a number of minutes before now. -/
inductive WrittenTime where
  | timestamp (time : ZonedTime)
  | minutesAgo (minutes : Nat)
deriving DecidableEq

namespace WrittenTime

/-- Reads a time. -/
def read (text : String) : Except CommandError WrittenTime :=
  match Calendar.readStrict? text.toList with
  | some time => .ok (.timestamp time)
  | none =>
    match Calendar.readRelative text.toList with
    | .ok minutes => .ok (.minutesAgo minutes)
    | .error .notRelative => .error (.invalidTime text)
    | .error .unreadableNumber => .error .unreadableNumber
    | .error (.tooLarge count unit) => .error (.distanceTooLarge count unit)

/-- The time that is meant where the given clock is. -/
def resolve (clock : LocalClock) : WrittenTime → ZonedTime
  | timestamp time => time
  | minutesAgo minutes => clock.timeAt (clock.nowMs - minutes * 60000)

end WrittenTime

/-- The time a command is run for: the one written, or now. -/
def resolveTime (clock : LocalClock) : Option String → Except CommandError ZonedTime
  | none => .ok clock.now
  | some text => (WrittenTime.read text).map (·.resolve clock)

end CalendarDial
