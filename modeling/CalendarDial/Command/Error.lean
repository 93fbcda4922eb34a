import CalendarDial.Calendar.Relative
import CalendarDial.Instant

/-!
# How a command fails

A command fails because its events file cannot be read or understood, because a time is not given in
a form that it knows, because the settings cannot be read, or because an instant leaves the 64-bit
range.
-/

namespace CalendarDial

/-- Why a command fails. -/
inductive CommandError where
  | unreadableEvents (path : String)
  | invalidEvents (path : String)
  | invalidTime (text : String)
  | unreadableNumber
  | distanceTooLarge (count : Nat) (unit : Calendar.TimeUnit)
  | unreadableSettings
  | overflow (overflow : Overflow)
deriving DecidableEq

namespace CommandError

/-- The wording under which a failure is reported. -/
def message : CommandError → String
  | unreadableEvents path => s!"failed to read events file {path}"
  | invalidEvents path => s!"invalid events file {path}"
  | invalidTime text =>
    s!"Invalid datetime: {text}. Use ISO 8601 (e.g., 2026-01-15T10:30:00Z) " ++
      "or relative (e.g., '2 hours ago')"
  | unreadableNumber => "failed to parse number in relative time"
  | distanceTooLarge count unit =>
    "Relative time value too large: " ++ toString count ++ " " ++ unit.name
  | unreadableSettings => "failed to load configuration"
  | overflow cause => cause.message

/-- An answer of arithmetic as an answer of a command. -/
def ofOverflow {α : Type} : Except Overflow α → Except CommandError α
  | .ok value => .ok value
  | .error cause => .error (.overflow cause)

end CommandError

end CalendarDial
