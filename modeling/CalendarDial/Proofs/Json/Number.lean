import Mathlib.Data.List.TakeWhile
import CalendarDial.Json.Coded
import CalendarDial.Proofs.Text.Digits

/-!
# Integers in JSON

An integer is written digit by digit, and its spelling is taken apart again without a loss: the
sign, the digits, and neither a fraction nor an exponent. As long as 64 bits hold its magnitude, all
of its digits are leading ones, so a record that looks at everything in it finds a finite number
there.
-/

namespace CalendarDial

/-- An integer is written with digits and a minus sign. -/
theorem Text.minus_or_digit_of_mem_signed (n : Int) (c : Char) (present : c ∈ Text.signed n) :
    c = '-' ∨ c.isDigit = true := by
  rw [Text.signed] at present
  split at present
  · rcases List.mem_cons.mp present with rfl | later
    · exact .inl rfl
    · exact .inr (Text.isDigit_of_mem_digits _ c later)
  · exact .inr (Text.isDigit_of_mem_digits _ c present)

/-- Only the number zero has a zero in front. Digit by digit from behind, what is left of the number
keeps its first digit. -/
theorem Text.eq_zero_of_head?_digits (n : Nat) (zero : (Text.digits n).head? = some '0') :
    n = 0 := by
  induction n using Nat.strongRecOn with
  | ind n inductionHypothesis =>
    by_cases short : n < 10
    · rw [digits, Nat.toDigits_of_lt_base short] at zero
      exact Nat.digitChar_eq_zero.mp (Option.some.inj zero)
    · rw [digits, Nat.toDigits_of_base_le (by decide) (Nat.le_of_not_lt short),
        List.head?_append, List.head?_eq_some_head Nat.toDigits_ne_nil, Option.some_or] at zero
      have quotient := inductionHypothesis (n / 10) (by omega)
        ((List.head?_eq_some_head Nat.toDigits_ne_nil).trans zero)
      omega

namespace Json

namespace NumberParts

/-- The parts of an integer that is written as one. -/
def ofInt (n : Int) : NumberParts := ⟨decide (n < 0), Text.digits n.natAbs, none, none⟩

/-- Without a minus sign there is no sign to take off. -/
theorem splitSign_of_ne (cs : List Char) (unsigned : ∀ rest, cs ≠ '-' :: rest) :
    splitSign cs = (false, cs) := by
  unfold splitSign
  split
  · next rest => exact absurd rfl (unsigned rest)
  · rfl

/-- The sign is taken off the spelling of an integer, and without one the first character is a
digit, from which nothing is taken. -/
theorem splitSign_signed (n : Int) :
    splitSign (Text.signed n) = (decide (n < 0), Text.digits n.natAbs) := by
  rw [Text.signed]
  split
  · next negative => rw [splitSign, decide_eq_true negative]
  · next positive =>
    have unsigned : ∀ rest, Text.digits n.natAbs ≠ '-' :: rest := by
      intro rest same
      have digit := Text.isDigit_of_mem_digits n.natAbs '-' (same ▸ List.mem_cons_self)
      exact absurd digit (by decide)
    rw [splitSign_of_ne _ unsigned, decide_eq_false positive]

/-- The spelling of an integer falls into its sign and its digits. All characters after the sign are
digits, and the only zero in front is the number zero, so nothing speaks against it. -/
theorem read_signed (n : Int) : read (Text.signed n) = some (ofInt n) := by
  have digit := Text.isDigit_of_mem_digits n.natAbs
  have whole : (Text.digits n.natAbs).takeWhile Char.isDigit = Text.digits n.natAbs :=
    List.takeWhile_eq_self_iff.mpr digit
  have rest : (Text.digits n.natAbs).dropWhile Char.isDigit = [] :=
    List.dropWhile_eq_nil_iff.mpr digit
  have plain : ¬ ((Text.digits n.natAbs).isEmpty = true ∨
      (Text.digits n.natAbs).head? = some '0' ∧ Text.digits n.natAbs ≠ ['0']) := by
    rintro (empty | ⟨zero, more⟩)
    · exact Nat.toDigits_ne_nil (List.isEmpty_iff.mp empty)
    · rw [Text.eq_zero_of_head?_digits n.natAbs zero] at more
      exact more rfl
  simp only [read, splitSign_signed, whole, rest, if_neg plain, splitFraction, readExponent, ofInt,
    bind, Option.bind, pure]

/-- The parts of an integer denote it: the digits are its magnitude, and the sign says on which side
of zero. -/
theorem int?_ofInt (n : Int) : (ofInt n).int? = some n := by
  simp only [int?, ofInt, Text.ofDigits_digits, Option.isSome_none, Bool.false_eq_true, or_self,
    if_false, decide_eq_true_eq]
  split
  · rw [if_neg (by omega), Option.some.injEq]
    omega
  · rw [Option.some.injEq]
    omega

/-- As long as the number stays within 64 bits, no digit is left over. What has been read so far is
never more than the whole number. -/
theorem extend_eq_of_le (held : Nat) (cs : List Char)
    (fits : Nat.ofDigitChars 10 cs held ≤ greatest64) :
    extend held cs = (Nat.ofDigitChars 10 cs held, []) := by
  induction cs generalizing held with
  | nil => rfl
  | cons c cs inductionHypothesis =>
    rw [Nat.ofDigitChars_cons, Nat.mul_comm] at fits ⊢
    have longer : held * 10 + (c.toNat - '0'.toNat) ≤ greatest64 := by
      refine Nat.le_trans ?_ fits
      rw [Nat.ofDigitChars_eq_ofDigitChars_zero]
      exact Nat.le_add_right_of_le (Nat.le_mul_of_pos_left _ (Nat.pow_pos (by decide)))
    rw [extend, if_pos longer, inductionHypothesis _ fits]

/-- An integer whose magnitude 64 bits hold is finite by its leading digits. All of its digits are
held, so there is nothing to shift. -/
theorem leadingFinite_ofInt (n : Int) (fits : n.natAbs ≤ greatest64) :
    (ofInt n).leadingFinite = true := by
  have held : extend 0 (Text.digits n.natAbs) = (n.natAbs, []) := by
    have value := Text.ofDigits_digits n.natAbs
    rw [Text.ofDigits] at value
    rw [extend_eq_of_le 0 _ (value.symm ▸ fits), value]
  simp [leadingFinite, leading, ofInt, held, extend, shift]

end NumberParts

end Json

end CalendarDial
