import CalendarDial.Text.Characters
import CalendarDial.Text.Digits

/-!
# Times in the past

A time can be given by its distance from now: a number, a unit with or without a plural `s`, and the
word `ago`, with white space between them and none around them. Digits of all scripts are seen as
digits, but only a number in ASCII digits that fits 64 bits can be used, and it may not reach back
further than a thousand years.
-/

namespace CalendarDial.Calendar

/-- The units of a distance in time. -/
inductive TimeUnit where
  | minute
  | hour
  | day
  | week
deriving DecidableEq

namespace TimeUnit

/-- All units. -/
def all : List TimeUnit := [minute, hour, day, week]

/-- The name of one unit. -/
def name : TimeUnit → String
  | minute => "minute"
  | hour => "hour"
  | day => "day"
  | week => "week"

/-- The minutes in one unit. -/
def minutes : TimeUnit → Nat
  | minute => 1
  | hour => 60
  | day => 1440
  | week => 10080

end TimeUnit

/-- The furthest distance, a thousand years of 365 days, in minutes. -/
def furthestMinutes : Nat := 525600000

/-- The greatest number that 64 bits with a sign hold. -/
def greatestCount : Nat := 9223372036854775807

/-- Why a text is not a usable distance: it is not of that form at all, its number cannot be read,
or its number is too large for its unit. -/
inductive RelativeError where
  | notRelative
  | unreadableNumber
  | tooLarge (count : Nat) (unit : TimeUnit)
deriving DecidableEq

/-- The rest of a text after the given beginning. -/
def afterWord (word : String) (cs : List Char) : Option (List Char) :=
  if word.toList.isPrefixOf cs then some (cs.drop word.length) else none

/-- A text without the plural `s` that it may begin with. -/
def afterPlural : List Char → List Char
  | 's' :: cs => cs
  | cs => cs

/-- What follows the number: white space, a unit, white space, and `ago` at the very end. -/
def readUnitAgo? (cs : List Char) : Option TimeUnit := do
  let unitText := Text.trimLeft cs
  let unit ← TimeUnit.all.find? fun unit => (afterWord unit.name unitText).isSome
  let rest := afterPlural (← afterWord unit.name unitText)
  let last := Text.trimLeft rest
  if unitText.length < cs.length ∧ last.length < rest.length ∧ last = "ago".toList then
    some unit
  else
    none

/-- The distance from now in minutes. -/
def readRelative (cs : List Char) : Except RelativeError Nat :=
  let number := cs.takeWhile Text.isAnyDigit
  match readUnitAgo? (cs.dropWhile Text.isAnyDigit) with
  | none => .error .notRelative
  | some unit =>
    let count := Text.ofDigits number
    if number.isEmpty then .error .notRelative
    else if !number.all Char.isDigit || greatestCount < count then .error .unreadableNumber
    else if furthestMinutes / unit.minutes < count then .error (.tooLarge count unit)
    else .ok (count * unit.minutes)

end CalendarDial.Calendar
