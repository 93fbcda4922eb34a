import Mathlib.Data.List.TakeWhile
import CalendarDial.Proofs.Text.Digits
import CalendarDial.Text.Characters

/-!
# Runs of digits and of white space

A run is as long as it can be when a character of another kind follows it, and then it is what is
taken off a text. No character is both a digit and white space.
-/

namespace CalendarDial.Text

/-- One or more characters, all of one kind. -/
structure Run (kind : Char → Bool) (cs : List Char) : Prop where
  nonempty : cs ≠ []
  all : ∀ c ∈ cs, kind c = true

/-- A digit of ASCII is a digit: its row is the first of those that are known. -/
theorem isAnyDigit_of_isDigit (c : Char) (digit : c.isDigit = true) : isAnyDigit c = true := by
  simp only [Char.isDigit, Bool.and_eq_true, decide_eq_true_eq, ge_iff_le] at digit
  have first : 48 ≤ c.toNat := UInt32.le_iff_toNat_le.mp digit.1
  have last : c.toNat ≤ 57 := UInt32.le_iff_toNat_le.mp digit.2
  refine List.any_eq_true.mpr ⟨0x30, List.mem_cons_self, ?_⟩
  simp only [Bool.and_eq_true, decide_eq_true_eq]
  omega

/-- No run of white space meets a row of digits. There are few of either, and every pair is
compared. -/
theorem blankRanges_apart : ∀ range ∈ blankRanges, ∀ first ∈ zeros,
    range.2 < first ∨ first + 10 ≤ range.1 := by
  decide +kernel

/-- White space is no digit, since the run that it is in meets no row of digits. -/
theorem isAnyDigit_of_isBlank (c : Char) (blank : isBlank c = true) : isAnyDigit c = false := by
  simp only [isBlank, List.any_eq_true, Bool.and_eq_true, decide_eq_true_eq] at blank
  obtain ⟨range, listed, least, greatest⟩ := blank
  simp only [isAnyDigit, List.any_eq_false, Bool.and_eq_true, decide_eq_true_eq]
  intro first row
  have apart := blankRanges_apart range listed first row
  omega

/-- A run in front of a character of another kind is what is taken off as long as the kind lasts. -/
theorem Run.takeWhile {kind : Char → Bool} {cs : List Char} (run : Run kind cs) (c : Char)
    (rest : List Char) (ends : kind c = false) : (cs ++ c :: rest).takeWhile kind = cs := by
  rw [List.takeWhile_append_of_pos run.all, List.takeWhile_cons_of_neg (by simp [ends]),
    List.append_nil]

/-- What follows the run is left. -/
theorem Run.dropWhile {kind : Char → Bool} {cs : List Char} (run : Run kind cs) (c : Char)
    (rest : List Char) (ends : kind c = false) : (cs ++ c :: rest).dropWhile kind = c :: rest := by
  rw [List.dropWhile_append_of_pos run.all, List.dropWhile_cons_of_neg (by simp [ends])]

/-- If taking white space off makes a text shorter, then the text begins with a run of it: what was
taken off, which cannot be empty. -/
theorem exists_run_of_trimLeft (cs : List Char) (shorter : (trimLeft cs).length < cs.length) :
    ∃ gap, Run isBlank gap ∧ cs = gap ++ trimLeft cs := by
  have split : cs.takeWhile isBlank ++ trimLeft cs = cs := List.takeWhile_append_dropWhile
  refine ⟨cs.takeWhile isBlank, ⟨?_, fun c => List.mem_takeWhile_imp⟩, split.symm⟩
  intro none
  rw [none, List.nil_append] at split
  rw [split] at shorter
  exact Nat.lt_irrefl _ shorter

/-- A digit of ASCII is no white space. -/
theorem isBlank_of_isDigit (c : Char) (digit : c.isDigit = true) : isBlank c = false := by
  rw [← Bool.not_eq_true]
  intro blank
  exact absurd (isAnyDigit_of_isDigit c digit) (by simp [isAnyDigit_of_isBlank c blank])

/-- A text that begins with a digit has no white space in front, so trimming leaves it as it is. -/
theorem Run.trimLeft {cs : List Char} (digits : Run Char.isDigit cs) (rest : List Char) :
    trimLeft (cs ++ rest) = cs ++ rest := by
  obtain ⟨c, cs, rfl⟩ := List.exists_cons_of_ne_nil digits.nonempty
  have notBlank := isBlank_of_isDigit c (digits.all c List.mem_cons_self)
  exact List.dropWhile_cons_of_neg (by simp [notBlank])

/-- A padded number is a run of digits, for every number has at least one. -/
theorem run_padded (width n : Nat) : Run Char.isDigit (padded width n) := by
  refine ⟨?_, List.all_eq_true.mp (all_isDigit_padded width n)⟩
  rw [padded, Ne, List.append_eq_nil_iff]
  exact fun none => Nat.toDigits_ne_nil none.2

end CalendarDial.Text
