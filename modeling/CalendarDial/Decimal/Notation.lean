import CalendarDial.Decimal.Double
import CalendarDial.Text.Digits

/-!
# Doubles in text

A double is written with its shortest digits. From a hundred-thousandth up to below ten to the
sixteenth the point stands where it belongs, with at least one digit on each side; outside that
range there is one digit before the point and the power of ten follows after an `e`.
-/

namespace CalendarDial.Decimal

/-- The powers of ten at the first digit for which the point stands where it belongs. -/
def IsPositional (power : Int) : Prop := -5 ≤ power ∧ power < 16

instance (power : Int) : Decidable (IsPositional power) := inferInstanceAs (Decidable (_ ∧ _))

/-- The text of a positive decimal. -/
def Numeral.text (d : Numeral) : List Char :=
  let shown := Text.digits d.digits
  let power : Int := d.exponent + shown.length - 1
  if IsPositional power then
    if 0 ≤ d.exponent then shown ++ List.replicate d.exponent.toNat '0' ++ ".0".toList
    else if 0 ≤ power then
      let whole := power.toNat + 1
      shown.take whole ++ '.' :: shown.drop whole
    else
      "0.".toList ++ List.replicate ((-power).toNat - 1) '0' ++ shown
  else
    let fraction := shown.drop 1
    shown.take 1 ++ (if fraction.isEmpty then [] else '.' :: fraction) ++
      'e' :: Text.signed power

/-- The text of a finite double. -/
def floatText (x : Float) : List Char :=
  let bits := x.toBits.toNat
  let sign := if bits / Nat.pow 2 63 = 1 then ['-'] else []
  let magnitude := bits % Nat.pow 2 63
  if magnitude = 0 then sign ++ "0.0".toList
  else sign ++ (Binary.ofBits magnitude).shortest.text

end CalendarDial.Decimal
