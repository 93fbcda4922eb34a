import CalendarDial.Calendar.Date
import CalendarDial.Window

/-!
# Timestamps

A timestamp is a date and a time of day on a clock with a given offset from absolute time. Its
instant is counted in milliseconds, what is finer is cut off. A second numbered sixty is accepted in
any minute; it lies one second after the fifty-ninth.

Dates are kept to the years from -262143 to 262142. Instants outside are not written as dates.
-/

namespace CalendarDial.Calendar

/-- A date and a time of day, with the fraction of the second in nanoseconds. -/
structure LocalTime where
  date : Date
  hour : Nat
  minute : Nat
  second : Nat
  nanosecond : Nat
deriving DecidableEq

/-- The milliseconds of a day. -/
def dayMs : Int := 86400000

/-- The first second of the years that are kept. -/
def firstSecond : Int := -8334601228800

/-- The last second of the years that are kept. -/
def lastSecond : Int := 8210266876799

namespace LocalTime

/-- There is such a day and such a time of day. -/
def Valid (time : LocalTime) : Prop :=
  time.date.Valid ∧ time.hour ≤ 23 ∧ time.minute ≤ 59 ∧ time.second ≤ 60

instance (time : LocalTime) : Decidable time.Valid :=
  inferInstanceAs (Decidable (_ ∧ _ ∧ _ ∧ _))

/-- The seconds from the start of 1970 on a clock without offset, a second numbered sixty counted as
the fifty-ninth. -/
def seconds (time : LocalTime) : Int :=
  time.date.toDays * 86400 + (time.hour * 3600 + time.minute * 60 + min time.second 59 : Nat)

/-- The milliseconds after the full second, more than a thousand in a second numbered sixty. -/
def millis (time : LocalTime) : Int :=
  (time.nanosecond / 1000000 + if time.second = 60 then 1000 else 0 : Nat)

/-- The instant that a clock with the given offset shows as this time, if there is such a time and
it falls in the years that are kept both on that clock and on one without offset. -/
def at? (time : LocalTime) (offsetSeconds : Int) : Option ZonedTime :=
  let seconds := time.seconds
  let utcSeconds := seconds - offsetSeconds
  if time.Valid ∧ firstSecond ≤ seconds ∧ seconds ≤ lastSecond ∧
      firstSecond ≤ utcSeconds ∧ utcSeconds ≤ lastSecond then
    some ⟨utcSeconds * 1000 + time.millis, offsetSeconds⟩
  else
    none

/-- What a clock without offset shows at an instant, to the second. -/
def ofInstant (ms : Int) : LocalTime :=
  let rest := (ms % dayMs / 1000).toNat
  ⟨Date.ofDays (ms / dayMs), rest / 3600, rest / 60 % 60, rest % 60, 0⟩

end LocalTime

/-- The instant falls in the years that are kept. -/
def IsKept (ms : Int) : Prop := firstSecond ≤ ms / 1000 ∧ ms / 1000 ≤ lastSecond

instance (ms : Int) : Decidable (IsKept ms) := inferInstanceAs (Decidable (_ ∧ _))

/-- Writes an instant with the given form, or as a bare number when its year is not kept. -/
def textOfInstant (form : LocalTime → List Char) (ms : Int) : String :=
  String.ofList (if IsKept ms then form (LocalTime.ofInstant ms) else Text.signed ms)

/-- Hours and minutes. -/
def clockForm (time : LocalTime) : List Char :=
  Text.padded 2 time.hour ++ ':' :: Text.padded 2 time.minute

/-- The date, then hours and minutes. -/
def dateClockForm (time : LocalTime) : List Char :=
  time.date.text ++ ' ' :: clockForm time

/-- The form of RFC 3339 for absolute time, to the second. -/
def utcForm (time : LocalTime) : List Char :=
  time.date.text ++ 'T' :: clockForm time ++ ':' :: Text.padded 2 time.second ++ ['Z']

/-- The hours and minutes of an instant. -/
def clockText (ms : Int) : String := textOfInstant clockForm ms

/-- The date and the hours and minutes of an instant. -/
def dateClockText (ms : Int) : String := textOfInstant dateClockForm ms

/-- An instant in absolute time, to the second. -/
def utcText (ms : Int) : String := textOfInstant utcForm ms

/-- The text of an offset: sign, hours and minutes, and the seconds when there are any. -/
def offsetText (offsetSeconds : Int) : String :=
  let size := offsetSeconds.natAbs
  String.ofList <|
    (if offsetSeconds < 0 then '-' else '+') :: Text.padded 2 (size / 3600) ++
      ':' :: Text.padded 2 (size / 60 % 60) ++
      if size % 60 = 0 then [] else ':' :: Text.padded 2 (size % 60)

end CalendarDial.Calendar
