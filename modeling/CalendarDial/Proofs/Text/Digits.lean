import Mathlib.Algebra.Group.Nat.Defs
import CalendarDial.Text.Digits

/-!
# Digits and the numbers they denote

A run of digits of a given length denotes a number below that power of ten, and each such number is
denoted by one run of that length: the one with zeros in front.
-/

namespace CalendarDial.Text

/-- A number is written with digits only. -/
theorem isDigit_of_mem_digits (n : Nat) (c : Char) (present : c ∈ digits n) : c.isDigit = true :=
  Nat.isDigit_of_mem_toDigits (by decide) (by decide) present

/-- A digit stands for less than ten, since the ten digits stand in a row. -/
theorem digit_lt (c : Char) (digit : c.isDigit = true) : c.toNat - '0'.toNat < 10 := by
  have upper : c.toNat ≤ 57 := by
    simp only [Char.isDigit, Bool.and_eq_true, decide_eq_true_eq, ge_iff_le] at digit
    exact UInt32.le_iff_toNat_le.mp digit.2
  have zero : '0'.toNat = 48 := rfl
  omega

/-- Digits stand for different numbers, each for how far it is from the first. -/
theorem digit_inj (c d : Char) (first : c.isDigit = true) (second : d.isDigit = true)
    (same : c.toNat - '0'.toNat = d.toNat - '0'.toNat) : c = d := by
  simp only [Char.isDigit, Bool.and_eq_true, decide_eq_true_eq, ge_iff_le] at first second
  have zero : '0'.toNat = 48 := rfl
  have lower : 48 ≤ c.toNat := UInt32.le_iff_toNat_le.mp first.1
  have also : 48 ≤ d.toNat := UInt32.le_iff_toNat_le.mp second.1
  exact Char.toNat_inj.mp (by omega)

/-- The first digit counts as often as the power of ten says that the others leave it. -/
theorem ofDigits_cons (c : Char) (cs : List Char) :
    ofDigits (c :: cs) = 10 ^ cs.length * (c.toNat - '0'.toNat) + ofDigits cs := by
  rw [ofDigits, Nat.ofDigitChars_cons, Nat.ofDigitChars_eq_ofDigitChars_zero]
  simp only [Nat.mul_zero, Nat.zero_add, ofDigits]

/-- So many digits denote a number below that power of ten. The first digit is at most nine, and the
others denote less than the power that it is counted in. -/
theorem ofDigits_lt (cs : List Char) (digits : cs.all Char.isDigit = true) :
    ofDigits cs < 10 ^ cs.length := by
  induction cs with
  | nil => exact Nat.zero_lt_one
  | cons c cs inductionHypothesis =>
    rw [List.all_cons, Bool.and_eq_true] at digits
    obtain ⟨first, rest⟩ := digits
    have digit := digit_lt c first
    have others := inductionHypothesis rest
    calc ofDigits (c :: cs)
        = 10 ^ cs.length * (c.toNat - '0'.toNat) + ofDigits cs := ofDigits_cons c cs
      _ < 10 ^ cs.length * (c.toNat - '0'.toNat) + 10 ^ cs.length := by omega
      _ = 10 ^ cs.length * (c.toNat - '0'.toNat + 1) := (Nat.mul_succ _ _).symm
      _ ≤ 10 ^ cs.length * 10 := Nat.mul_le_mul_left _ digit
      _ = 10 ^ (c :: cs).length := (Nat.pow_succ ..).symm

/-- Runs of digits of one length denote different numbers. The first digit is the quotient by the
power of ten and the others denote the remainder, so both are determined. -/
theorem ofDigits_inj (cs ds : List Char) (length : cs.length = ds.length)
    (first : cs.all Char.isDigit = true) (second : ds.all Char.isDigit = true)
    (same : ofDigits cs = ofDigits ds) : cs = ds := by
  induction cs generalizing ds with
  | nil => exact (List.length_eq_zero_iff.mp length.symm).symm
  | cons c cs inductionHypothesis =>
    cases ds with
    | nil => cases length
    | cons d ds =>
      have rest : cs.length = ds.length := Nat.succ.inj length
      rw [List.all_cons, Bool.and_eq_true] at first second
      have below := ofDigits_lt cs first.2
      have also := ofDigits_lt ds second.2
      rw [ofDigits_cons, ofDigits_cons, ← rest] at same
      rw [← rest] at also
      have power : 0 < 10 ^ cs.length := Nat.pow_pos (by decide)
      have leading : c.toNat - '0'.toNat = d.toNat - '0'.toNat := by
        have left := Nat.mul_add_div power (c.toNat - '0'.toNat) (ofDigits cs)
        have right := Nat.mul_add_div power (d.toNat - '0'.toNat) (ofDigits ds)
        rw [Nat.div_eq_of_lt below, Nat.add_zero] at left
        rw [Nat.div_eq_of_lt also, Nat.add_zero] at right
        rw [← left, same, right]
      rw [leading] at same
      rw [digit_inj c d first.1 second.1 leading,
        inductionHypothesis ds rest first.2 second.2 (Nat.add_left_cancel same)]

/-- A padded number is written with digits only, for what is put in front are zeros. -/
theorem all_isDigit_padded (width n : Nat) : (padded width n).all Char.isDigit = true := by
  rw [padded, List.all_append, Bool.and_eq_true]
  refine ⟨List.all_eq_true.mpr fun c present => ?_, List.all_eq_true.mpr (isDigit_of_mem_digits n)⟩
  rw [List.eq_of_mem_replicate present]
  rfl

/-- A number that fits into the width is padded to it: its own digits are no more than that, and the
zeros are what is missing. -/
theorem length_padded (width n : Nat) (some : 0 < width) (fits : n < 10 ^ width) :
    (padded width n).length = width := by
  have short : (digits n).length ≤ width := (Nat.length_toDigits_le_iff (by decide) some).mpr fits
  rw [padded, List.length_append, List.length_replicate, Nat.sub_add_cancel short]

/-- Padding does not change the number. -/
theorem ofDigits_padded (width n : Nat) : ofDigits (padded width n) = n := by
  rw [padded, ofDigits, Nat.ofDigitChars_append, Nat.ofDigitChars_replicate_zero, Nat.mul_zero]
  exact ofDigits_digits n

/-- Digits are what their number is padded to. Both are runs of that length and denote the same
number. -/
theorem padded_ofDigits (cs : List Char) (digits : cs.all Char.isDigit = true) (some : cs ≠ []) :
    padded cs.length (ofDigits cs) = cs := by
  have length := length_padded cs.length (ofDigits cs) (List.length_pos_iff.mpr some)
    (ofDigits_lt cs digits)
  exact ofDigits_inj _ cs length (all_isDigit_padded _ _) digits (ofDigits_padded _ _)

end CalendarDial.Text
