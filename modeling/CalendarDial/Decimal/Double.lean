/-!
# Whole numbers and decimals as doubles

A double has a mantissa of 53 binary digits. A whole number with more of them lies on or between
two multiples of a power of two, the unit of its size, and is rounded to the nearer one. From the
middle between the greatest double and the power of two that follows it, rounding leads to infinity.

In the other direction, a double stands for all the reals that round to it. Among the decimals in
that interval the one with the fewest digits is wanted, and of those the one nearest to the double
itself. Grids of decimals are tried from coarse to fine. On each of them only the two neighbours of
the double can be the nearest, and if the interval holds any point of the grid it holds one of these
two.
-/

namespace CalendarDial.Decimal

/-- The multiple of a unit that is nearest to a number; halfway between two of them the even
multiple. -/
def nearestMultiple (unit n : Nat) : Nat :=
  let below := n / unit
  let rest := n % unit
  if 2 * rest < unit ∨ (2 * rest = unit ∧ below % 2 = 0) then unit * below
  else unit * (below + 1)

/-- The whole number that a whole number becomes as a double, as long as that is finite. -/
def nearestDouble (n : Nat) : Nat := nearestMultiple (Nat.pow 2 (Nat.log2 n - 52)) n

/-- The least number that becomes infinite as a double. -/
def leastInfinite : Nat := Nat.pow 2 1024 - Nat.pow 2 970

/-- A positive double: a mantissa times a power of two. At the bottom of a range of equal spacing
the gap to the next smaller double is half of the gap to the next larger one. -/
structure Binary where
  mantissa : Nat
  exponent : Int
  narrowBelow : Bool

namespace Binary

/-- A positive finite double from its bits: those of a normal one hold the mantissa without its
leading one, those of a small one hold it whole. -/
def ofBits (bits : Nat) : Binary :=
  let fraction := bits % Nat.pow 2 52
  let scale : Nat := bits / Nat.pow 2 52 % Nat.pow 2 11
  if scale = 0 then ⟨fraction, -1074, false⟩
  else ⟨Nat.pow 2 52 + fraction, scale - 1075, decide (fraction = 0 ∧ 1 < scale)⟩

/-- A power of two. -/
def power (exponent : Int) : Rat := (2 : Rat) ^ exponent

/-- The number that the double is. -/
def value (b : Binary) : Rat := b.mantissa * power b.exponent

/-- The least real that rounds to the double, up to whether it does so itself. -/
def low (b : Binary) : Rat :=
  b.value - power (b.exponent - if b.narrowBelow then 2 else 1)

/-- The greatest real that rounds to the double, up to whether it does so itself. -/
def high (b : Binary) : Rat := b.value + power (b.exponent - 1)

/-- The number rounds to the double. The ends of the interval do when the mantissa is even. -/
def Covers (b : Binary) (x : Rat) : Prop :=
  if b.mantissa % 2 = 0 then b.low ≤ x ∧ x ≤ b.high else b.low < x ∧ x < b.high

instance (b : Binary) (x : Rat) : Decidable (b.Covers x) :=
  inferInstanceAs (Decidable (ite _ _ _))

end Binary

/-- A decimal number without its sign: a whole number times a power of ten. -/
structure Numeral where
  digits : Nat
  exponent : Int
deriving DecidableEq

/-- The number that the decimal is. -/
def Numeral.value (d : Numeral) : Rat := d.digits * (10 : Rat) ^ d.exponent

/-- The same number without zeros at the end of its digits. -/
def Numeral.trim (d : Numeral) : Numeral :=
  if 0 < d.digits ∧ d.digits % 10 = 0 then Numeral.trim ⟨d.digits / 10, d.exponent + 1⟩ else d
termination_by d.digits
decreasing_by omega

/-- The power of ten at the first digit of a positive number. -/
def magnitude (x : Rat) : Int :=
  let guess : Int :=
    (Nat.toDigits 10 x.num.natAbs).length - (Nat.toDigits 10 x.den).length
  if (10 : Rat) ^ guess ≤ x then guess else guess - 1

/-- The nearer of the two neighbours on a grid that round to the double; halfway between them the
even one. -/
def nearestOnGrid (b : Binary) (exponent : Int) : Option Numeral :=
  let below : Numeral := ⟨(b.value / (10 : Rat) ^ exponent).floor.toNat, exponent⟩
  let above : Numeral := ⟨below.digits + 1, exponent⟩
  let distanceBelow := b.value - below.value
  let distanceAbove := above.value - b.value
  if b.Covers below.value ∧ 0 < below.digits then
    if b.Covers above.value ∧ (distanceAbove < distanceBelow ∨
        (distanceAbove = distanceBelow ∧ above.digits % 2 = 0)) then
      some above
    else
      some below
  else if b.Covers above.value then
    some above
  else
    none

/-- The first grid with a point that rounds to the double, from the given number of digits on. No
double needs more than seventeen digits. -/
def firstGrid (b : Binary) (top : Int) : Nat → Nat → Numeral
  | _, 0 => ⟨0, 0⟩
  | count, tries + 1 =>
    match nearestOnGrid b (top - count + 1) with
    | some numeral => numeral
    | none => firstGrid b top (count + 1) tries

/-- The shortest decimal that rounds to a positive double. -/
def Binary.shortest (b : Binary) : Numeral := (firstGrid b (magnitude b.value) 1 17).trim

end CalendarDial.Decimal
