/-!
# Decimal digits in text

Whole numbers are written with the ASCII digits and nothing else: no separators, no sign in front of
a number that is not negative, no leading zeros unless a width is asked for.
-/

namespace CalendarDial.Text

/-- A number in decimal digits. -/
def digits (n : Nat) : List Char := Nat.toDigits 10 n

/-- The number that a run of decimal digits denotes. -/
def ofDigits (cs : List Char) : Nat := Nat.ofDigitChars 10 cs 0

/-- A number in at least so many decimal digits, zeros in front where it has fewer. -/
def padded (width n : Nat) : List Char :=
  let shortest := digits n
  List.replicate (width - shortest.length) '0' ++ shortest

/-- An integer in decimal digits, with a minus sign in front when it is negative. -/
def signed (n : Int) : List Char :=
  if n < 0 then '-' :: digits n.natAbs else digits n.natAbs

/-- The value of a hexadecimal digit in either case. -/
def hexValue? (c : Char) : Option Nat :=
  if '0' ≤ c ∧ c ≤ '9' then some (c.toNat - '0'.toNat)
  else if 'a' ≤ c ∧ c ≤ 'f' then some (c.toNat - 'a'.toNat + 10)
  else if 'A' ≤ c ∧ c ≤ 'F' then some (c.toNat - 'A'.toNat + 10)
  else none

/-- A number in lower-case hexadecimal digits, zeros in front up to the width. -/
def paddedHex (width n : Nat) : List Char :=
  let shortest := Nat.toDigits 16 n
  List.replicate (width - shortest.length) '0' ++ shortest

/-- Reading the digits of a number gives the number back. -/
theorem ofDigits_digits (n : Nat) : ofDigits (digits n) = n :=
  Nat.ofDigitChars_toDigits (by decide) (by decide)

end CalendarDial.Text
