import CalendarDial.Decimal.Double
import CalendarDial.Text.Digits

/-!
# The spelling of JSON numbers

A number is an optional minus sign, a whole part without superfluous zeros, an optional fraction and
an optional exponent. A spelling denotes an integer when it has neither fraction nor exponent and is
not minus zero, which only a float can be.

Whether a number is finite as a double is asked in two ways: of the number itself, and of the
product of its leading digits, as many as 64 bits hold, with a power of ten. The product is rounded
at every step and so gives another answer for some numbers next to the greatest double.
-/

namespace CalendarDial.Json

/-- The largest number that 32 bits hold. -/
def greatest32 : Nat := 4294967295

/-- The largest number that 64 bits hold. -/
def greatest64 : Nat := 18446744073709551615

/-- The parts of the spelling of a number: its sign, the digits before and after the point, and the
exponent with its sign. -/
structure NumberParts where
  negative : Bool
  whole : List Char
  fraction : Option (List Char)
  exponent : Option (Bool × List Char)

namespace NumberParts

/-- Takes the sign off a spelling. -/
def splitSign : List Char → Bool × List Char
  | '-' :: cs => (true, cs)
  | cs => (false, cs)

/-- The fraction at the front of a spelling, which must have a digit, and the rest. -/
def splitFraction : List Char → Option (Option (List Char) × List Char)
  | '.' :: cs =>
    let digits := cs.takeWhile Char.isDigit
    if digits.isEmpty then none else some (some digits, cs.dropWhile Char.isDigit)
  | cs => some (none, cs)

/-- The exponent that a spelling consists of, which must have a digit, or nothing at all. -/
def readExponent : List Char → Option (Option (Bool × List Char))
  | [] => some none
  | mark :: cs =>
    if mark = 'e' ∨ mark = 'E' then
      let (negative, digits) := match cs with
        | '-' :: ds => (true, ds)
        | '+' :: ds => (false, ds)
        | ds => (false, ds)
      if digits.isEmpty ∨ digits.any (!·.isDigit) then none else some (some (negative, digits))
    else
      none

/-- The parts of a spelling, if it is the spelling of a number. -/
def read (spelling : List Char) : Option NumberParts := do
  let (negative, cs) := splitSign spelling
  let whole := cs.takeWhile Char.isDigit
  if whole.isEmpty ∨ (whole.head? = some '0' ∧ whole ≠ ['0']) then
    none
  else do
    let (fraction, rest) ← splitFraction (cs.dropWhile Char.isDigit)
    let exponent ← readExponent rest
    pure ⟨negative, whole, fraction, exponent⟩

/-- The integer that the parts denote, if they denote one. -/
def int? (parts : NumberParts) : Option Int :=
  if parts.fraction.isSome ∨ parts.exponent.isSome then
    none
  else
    let magnitude := Text.ofDigits parts.whole
    if parts.negative then
      if magnitude = 0 then none else some (-magnitude)
    else
      some magnitude

/-- The number that the exponent denotes, zero when there is none. -/
def shift (parts : NumberParts) : Int :=
  match parts.exponent with
  | none => 0
  | some (true, digits) => -(Text.ofDigits digits)
  | some (false, digits) => Text.ofDigits digits

/-- The digits of the number read as one whole number, and the power of ten that it is to be
multiplied with. -/
def scaled (parts : NumberParts) : Nat × Int :=
  let fraction := parts.fraction.getD []
  (Text.ofDigits (parts.whole ++ fraction), parts.shift - fraction.length)

/-- A double can hold the number: it lies below the midpoint between the greatest double and the
power of two that follows. Powers of ten far from that midpoint are told apart by their size
alone. -/
def finite (parts : NumberParts) : Bool :=
  let (mantissa, exponent) := parts.scaled
  let magnitude := (Text.digits mantissa).length + exponent
  if mantissa = 0 ∨ magnitude < 300 then true
  else if 320 < magnitude then false
  else if 0 ≤ exponent then decide (mantissa * Nat.pow 10 exponent.toNat < Decimal.leastInfinite)
  else decide (mantissa < Decimal.leastInfinite * Nat.pow 10 (-exponent).toNat)

/-- Writes digits after a number as long as 64 bits hold it: the number reached, and the digits from
the first one on that is too much. -/
def extend (held : Nat) : List Char → Nat × List Char
  | [] => (held, [])
  | c :: cs =>
    let longer := held * 10 + (c.toNat - '0'.toNat)
    if longer ≤ greatest64 then extend longer cs else (held, c :: cs)

/-- The leading digits of the number, as many as 64 bits hold, and the power of ten that they are to
be multiplied with. Digits of the whole part that are too many count for the power of ten, those of
the fraction not at all. The fraction is tried even after too long a whole part, for its first digit
can be smaller than the one that was too much. -/
def leading (parts : NumberParts) : Nat × Int :=
  let fraction := parts.fraction.getD []
  let (whole, wholeLeft) := extend 0 parts.whole
  let (held, fractionLeft) := extend whole fraction
  (held, parts.shift + wholeLeft.length + fractionLeft.length - fraction.length)

/-- The product of the leading digits with their power of ten is finite when either factor and the
product itself are rounded to doubles. From the 309th power of ten on no double holds the power. -/
def leadingFinite (parts : NumberParts) : Bool :=
  let (held, exponent) := parts.leading
  if held = 0 ∨ exponent ≤ 0 then true
  else if 308 < exponent then false
  else
    let power := Decimal.nearestDouble (Nat.pow 10 exponent.toNat)
    decide (Decimal.nearestDouble held * power < Decimal.leastInfinite)

end NumberParts

end CalendarDial.Json
