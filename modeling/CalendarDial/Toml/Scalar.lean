import CalendarDial.Calendar.Scan
import CalendarDial.Config.Value
import CalendarDial.Instant
import CalendarDial.Json.Number
import CalendarDial.Toml.Space

/-!
# Bare values in TOML

A value without quotes or brackets is a truth value, a number, a date or a time of day. Numbers may
have underscores between their digits. An integer is written in decimal, or without a sign in one of
three other bases, and has to fit 64 bits.

No setting can be a fraction, so fractions are kept only as something else. A date or a time counts
as a table, one in which no setting is found.
-/

namespace CalendarDial.Toml

open Calendar Config

/-- The character can be part of a bare value. -/
def isWordChar (c : Char) : Bool :=
  c.isAlphanum || c = '_' || c = '+' || c = '-' || c = '.' || c = ':'

/-- A word without the underscores between its digits. There is none if an underscore stands
anywhere else. -/
def withoutUnderscores? (isDigit : Char → Bool) (afterDigit : Bool) : List Char → Option (List Char)
  | [] => some []
  | c :: cs =>
    if c = '_' then
      if afterDigit && cs.head?.any isDigit then withoutUnderscores? isDigit false cs else none
    else (withoutUnderscores? isDigit (isDigit c) cs).map (c :: ·)

/-- An integer, if 64 bits hold it. -/
def integer? (n : Int) : Option Value := if Instant.Representable n then some (.int n) else none

/-- The number that digits of a base denote. -/
def ofBase? (base : Nat) (word : List Char) : Option Value := do
  let value? (c : Char) : Option Nat := (Text.hexValue? c).filter (· < base)
  let digits ← withoutUnderscores? (fun c => (value? c).isSome) false word
  let values ← digits.mapM value?
  if values.isEmpty then none
  else integer? (values.foldl (fun number value => number * base + value) 0 : Nat)

/-- The sign in front of a word, true for minus, and the rest of the word. -/
def splitSign : List Char → Bool × List Char
  | '-' :: cs => (true, cs)
  | '+' :: cs => (false, cs)
  | cs => (false, cs)

/-- The number that a decimal word denotes. A fraction must not be too great for a double; one that
is too small counts as infinite. -/
def decimal? (word : List Char) : Option Value := do
  let (negative, magnitude) := splitSign (← withoutUnderscores? Char.isDigit false word)
  if magnitude = "inf".toList ∨ magnitude = "nan".toList then
    pure .other
  else if magnitude.head? = some '-' then
    none
  else
    let parts ← Json.NumberParts.read magnitude
    if parts.fraction.isNone ∧ parts.exponent.isNone then
      let n : Int := Text.ofDigits parts.whole
      integer? (if negative then -n else n)
    else if negative ∨ parts.finite then pure .other
    else none

/-- A text after the date at its front. -/
def afterDate? (cs : List Char) : Option (List Char) := do
  let (year, cs) ← Scan.fixed 4 cs
  let cs ← Scan.char '-' cs
  let (month, cs) ← Scan.fixed 2 cs
  let cs ← Scan.char '-' cs
  let (day, cs) ← Scan.fixed 2 cs
  if (Date.mk year month day).Valid then some cs else none

/-- A text after the hours and minutes at its front. -/
def afterClock? (cs : List Char) : Option (List Char) := do
  let (hour, cs) ← Scan.fixed 2 cs
  let cs ← Scan.char ':' cs
  let (minute, cs) ← Scan.fixed 2 cs
  if hour ≤ 23 ∧ minute ≤ 59 then some cs else none

/-- A text after the time of day at its front. -/
def afterTime? (cs : List Char) : Option (List Char) := do
  let cs ← afterClock? cs
  let cs ← Scan.char ':' cs
  let (second, cs) ← Scan.fixed 2 cs
  let (_, cs) ← Scan.fraction cs
  if second ≤ 60 then some cs else none

/-- A text after the time of day and the offset, where there is one, at its front. -/
def afterZonedTime? (cs : List Char) : Option (List Char) := do
  match ← afterTime? cs with
  | 'Z' :: cs => some cs
  | 'z' :: cs => some cs
  | '+' :: cs => afterClock? cs
  | '-' :: cs => afterClock? cs
  | cs => some cs

/-- A text after the date, perhaps with a time, or the time of day at its front. -/
def afterDateTime? (cs : List Char) : Option (List Char) :=
  match afterDate? cs with
  | some rest =>
    match Scan.dateTimeSeparator rest with
    | some time => (afterZonedTime? time).or (some rest)
    | none => some rest
  | none => afterTime? cs

/-- Any date and any time of day. -/
def dateTime : Value := .table []

/-- The value that a word denotes. -/
def ofWord? (word : List Char) : Option Value :=
  if word = "true".toList then some (.bool true)
  else if word = "false".toList then some (.bool false)
  else match word with
    | '0' :: 'x' :: digits => ofBase? 16 digits
    | '0' :: 'o' :: digits => ofBase? 8 digits
    | '0' :: 'b' :: digits => ofBase? 2 digits
    | word => decimal? word

/-- The bare value at the front of a text, and what follows. A date and a time may have a space
between them, so they are looked for before the end of the word is. -/
def readWord (cs : List Char) : Option (Value × List Char) :=
  match afterDateTime? cs with
  | some rest => some (dateTime, rest)
  | none => (ofWord? (cs.takeWhile isWordChar)).map fun value => (value, cs.dropWhile isWordChar)

end CalendarDial.Toml
