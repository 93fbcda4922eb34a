import CalendarDial.Calendar.Scan

/-!
# The two forms of timestamps

In the strict form, which is that of RFC 3339, every field has its fixed number of digits and its
fixed separators, and nothing may stand before or after. The date and the time are joined by a `T`
in either case or by a space.

In the relaxed form white space may stand before every number, before the hyphens and colons, and
around the offset; the fields after the year may have a single digit. A year with a sign may have
any number of digits, one without at most four. The offset may be given as `UTC` in any case, and
its hours and minutes may be separated by any mixture of colons and white space, or by nothing.
-/

namespace CalendarDial.Calendar

/-- The instant and the offset of a timestamp in the form of RFC 3339. -/
def readStrict? (cs : List Char) : Option ZonedTime := do
  let (year, cs) ← Scan.fixed 4 cs
  let cs ← Scan.char '-' cs
  let (month, cs) ← Scan.fixed 2 cs
  let cs ← Scan.char '-' cs
  let (day, cs) ← Scan.fixed 2 cs
  let cs ← Scan.dateTimeSeparator cs
  let (hour, cs) ← Scan.fixed 2 cs
  let cs ← Scan.char ':' cs
  let (minute, cs) ← Scan.fixed 2 cs
  let cs ← Scan.char ':' cs
  let (second, cs) ← Scan.fixed 2 cs
  let (nanosecond, cs) ← Scan.fraction cs
  let (offsetSeconds, cs) ← Scan.offset (Scan.char ':') cs
  if cs.isEmpty then
    LocalTime.at? ⟨⟨year, month, day⟩, hour, minute, second, nanosecond⟩ offsetSeconds
  else
    none

namespace Relaxed

/-- A year. -/
def year (cs : List Char) : Option (Int × List Char) :=
  match Text.trimLeft cs with
  | '-' :: rest => (Scan.all rest).map fun (value, rest) => (-value, rest)
  | '+' :: rest => (Scan.all rest).map fun (value, rest) => (value, rest)
  | rest => (Scan.upTo 4 rest).map fun (value, rest) => (value, rest)

/-- A field of one or two digits. -/
def field (cs : List Char) : Option (Nat × List Char) := Scan.upTo 2 (Text.trimLeft cs)

/-- A separator with white space before it. -/
def separator (expected : Char) (cs : List Char) : Option (List Char) :=
  Scan.char expected (Text.trimLeft cs)

/-- Passes over colons and white space. -/
def colonsOrBlanks (cs : List Char) : Option (List Char) :=
  some (cs.dropWhile fun c => c = ':' || Text.isBlank c)

/-- The name of absolute time, in any case. -/
def utcName : List Char → Option (List Char)
  | a :: b :: c :: rest =>
    if a.toUpper = 'U' ∧ b.toUpper = 'T' ∧ c.toUpper = 'C' then some rest else none
  | _ => none

/-- An offset in seconds, or the name of absolute time. -/
def offset (cs : List Char) : Option (Int × List Char) :=
  let cs := Text.trimLeft cs
  match utcName cs with
  | some rest => some (0, rest)
  | none => Scan.offset colonsOrBlanks cs

end Relaxed

/-- The instant and the offset of a timestamp in the relaxed form. -/
def readRelaxed? (cs : List Char) : Option ZonedTime := do
  let (year, cs) ← Relaxed.year cs
  let cs ← Relaxed.separator '-' cs
  let (month, cs) ← Relaxed.field cs
  let cs ← Relaxed.separator '-' cs
  let (day, cs) ← Relaxed.field cs
  let cs ← Scan.dateTimeSeparator cs
  let (hour, cs) ← Relaxed.field cs
  let cs ← Relaxed.separator ':' cs
  let (minute, cs) ← Relaxed.field cs
  let cs ← Relaxed.separator ':' cs
  let (second, cs) ← Relaxed.field cs
  let (nanosecond, cs) ← Scan.fraction cs
  let (offsetSeconds, cs) ← Relaxed.offset cs
  if (Text.trimLeft cs).isEmpty then
    LocalTime.at? ⟨⟨year, month, day⟩, hour, minute, second, nanosecond⟩ offsetSeconds
  else
    none

end CalendarDial.Calendar
