import CalendarDial.Calendar.Timestamp
import CalendarDial.Text.Characters

/-!
# Parts of written timestamps

The pieces that the strict and the relaxed form of a timestamp are made of. Each reader takes what
it reads off the front of a text and returns the rest.
-/

namespace CalendarDial.Calendar.Scan

/-- The text after a given character. -/
def char (expected : Char) : List Char → Option (List Char)
  | c :: cs => if c = expected then some cs else none
  | [] => none

/-- A number of exactly so many digits. -/
def fixed (width : Nat) (cs : List Char) : Option (Nat × List Char) :=
  let digits := cs.take width
  if digits.length = width ∧ digits.all Char.isDigit then
    some (Text.ofDigits digits, cs.drop width)
  else
    none

/-- A number of one digit or more, of which no more are taken than allowed. -/
def upTo (width : Nat) (cs : List Char) : Option (Nat × List Char) :=
  let digits := (cs.take width).takeWhile Char.isDigit
  if digits.isEmpty then none else some (Text.ofDigits digits, cs.drop digits.length)

/-- A number of all the digits there are, one at least. -/
def all (cs : List Char) : Option (Nat × List Char) := upTo cs.length cs

/-- A `T` in either case, or a space. -/
def dateTimeSeparator : List Char → Option (List Char)
  | c :: cs => if c = 'T' ∨ c = 't' ∨ c = ' ' then some cs else none
  | [] => none

/-- An optional fraction of a second in nanoseconds. Digits after the ninth are passed over. -/
def fraction : List Char → Option (Nat × List Char)
  | '.' :: cs =>
    let digits := cs.takeWhile Char.isDigit
    let kept := digits.take 9
    if digits.isEmpty then none
    else some (Text.ofDigits kept * Nat.pow 10 (9 - kept.length), cs.drop digits.length)
  | cs => some (0, cs)

/-- A sign: plus, hyphen or the mathematical minus. True stands for a negative one. -/
def sign : List Char → Option (Bool × List Char)
  | c :: cs =>
    if c = '+' then some (false, cs)
    else if c = '-' ∨ c = '\u2212' then some (true, cs)
    else none
  | [] => none

/-- An offset in seconds, less than a day: a `Z` in either case, or a sign, two digits of hours,
what `separator` passes over, and two digits of minutes. -/
def offset (separator : List Char → Option (List Char)) (cs : List Char) :
    Option (Int × List Char) :=
  match cs with
  | 'Z' :: rest => some (0, rest)
  | 'z' :: rest => some (0, rest)
  | _ => do
    let (negative, cs) ← sign cs
    let (hours, cs) ← fixed 2 cs
    let cs ← separator cs
    let (minutes, cs) ← fixed 2 cs
    let seconds : Int := (hours * 3600 + minutes * 60 : Nat)
    if minutes ≤ 59 ∧ hours ≤ 23 then
      some (if negative then -seconds else seconds, cs)
    else
      none

end CalendarDial.Calendar.Scan
