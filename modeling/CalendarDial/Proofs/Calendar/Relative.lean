import CalendarDial.Command.Time
import CalendarDial.Proofs.Text.Runs

/-!
# The form of a distance from now

A distance is written as digits, white space, a unit with or without a plural `s`, white space, and
`ago`. No digit is white space and the units begin with different letters, so a text has this form
in one way at most, and reading finds it. What is left to decide is whether the digits are a number
that can be used: they have to be ASCII digits, 64 bits have to hold the number, and it may not
reach back further than the furthest distance.
-/

namespace CalendarDial.Calendar

open Text (Run)

/-- White space, a unit with or without a plural `s`, white space, and `ago` at the very end. -/
def IsUnitAgo (cs : List Char) (unit : TimeUnit) : Prop :=
  ∃ gap plural lastGap, Run Text.isBlank gap ∧ (plural = [] ∨ plural = ['s']) ∧
    Run Text.isBlank lastGap ∧
    cs = gap ++ (unit.name.toList ++ (plural ++ (lastGap ++ "ago".toList)))

/-- The text has the form of a distance from now, with the given digits and the given unit. The
digits may be those of any script. -/
def IsDistance (cs digits : List Char) (unit : TimeUnit) : Prop :=
  Run Text.isAnyDigit digits ∧ ∃ rest, IsUnitAgo rest unit ∧ cs = digits ++ rest

/-- The text after a word is what the word has to be put in front of to get the whole text. -/
theorem afterWord_eq_some_iff (word : String) (cs rest : List Char) :
    afterWord word cs = some rest ↔ cs = word.toList ++ rest := by
  rw [afterWord, Option.ite_none_right_eq_some, List.isPrefixOf_iff_prefix, Option.some.injEq]
  constructor
  · rintro ⟨⟨others, rfl⟩, rfl⟩
    rw [← String.length_toList, List.drop_left]
  · rintro rfl
    exact ⟨List.prefix_append _ _, by rw [← String.length_toList, List.drop_left]⟩

/-- The units begin with different letters, so only the one that is written is found. -/
theorem find?_unit (unit : TimeUnit) (rest : List Char) :
    TimeUnit.all.find? (fun other => (afterWord other.name (unit.name.toList ++ rest)).isSome) =
      some unit := by
  cases unit <;> rfl

/-- A unit begins with a letter, and a letter is no white space. -/
theorem exists_letter (unit : TimeUnit) :
    ∃ c cs, unit.name.toList = c :: cs ∧ Text.isBlank c = false := by
  cases unit <;> exact ⟨_, _, rfl, rfl⟩

/-- Nothing but a plural `s` is taken off, and at most one. -/
theorem exists_plural (cs : List Char) :
    ∃ plural, (plural = [] ∨ plural = ['s']) ∧ cs = plural ++ afterPlural cs := by
  rw [afterPlural.eq_def]
  split
  · exact ⟨['s'], .inr rfl, rfl⟩
  · exact ⟨[], .inl rfl, rfl⟩

/-- White space is no plural, so nothing is taken off it. -/
theorem afterPlural_run (gap rest : List Char) (run : Run Text.isBlank gap) :
    afterPlural (gap ++ rest) = gap ++ rest := by
  obtain ⟨c, others, rfl⟩ := List.exists_cons_of_ne_nil run.nonempty
  have blank := run.all c List.mem_cons_self
  rw [List.cons_append, afterPlural.eq_def]
  split
  · next same =>
    obtain ⟨rfl, -⟩ := List.cons.inj same
    exact absurd blank (by decide)
  · rfl

/-- What is read after the number is exactly what has the form of it. In one direction the pieces
that were taken off are put together; in the other each of them is found, because the next piece
begins with a character of another kind. -/
theorem readUnitAgo?_eq_some_iff (cs : List Char) (unit : TimeUnit) :
    readUnitAgo? cs = some unit ↔ IsUnitAgo cs unit := by
  constructor
  case mp =>
    intro read
    simp only [readUnitAgo?, Option.bind_eq_bind, Option.bind_eq_some_iff,
      Option.ite_none_right_eq_some, Option.some.injEq, afterWord_eq_some_iff] at read
    obtain ⟨_, -, rest, named, ⟨spaced, separated, ended⟩, rfl⟩ := read
    obtain ⟨gap, run, begins⟩ := Text.exists_run_of_trimLeft cs spaced
    obtain ⟨plural, number, more⟩ := exists_plural rest
    obtain ⟨lastGap, lastRun, last⟩ := Text.exists_run_of_trimLeft _ separated
    refine ⟨gap, plural, lastGap, run, number, lastRun, ?_⟩
    rw [begins, named, ← ended, ← last, ← more]
  case mpr =>
    rintro ⟨gap, plural, lastGap, run, number, lastRun, rfl⟩
    obtain ⟨c, name, letter, notBlank⟩ := exists_letter unit
    have unitText :
        Text.trimLeft (gap ++ (unit.name.toList ++ (plural ++ (lastGap ++ "ago".toList)))) =
        unit.name.toList ++ (plural ++ (lastGap ++ "ago".toList)) := by
      rw [letter]
      exact run.dropWhile c _ notBlank
    have named := (afterWord_eq_some_iff unit.name _ (plural ++ (lastGap ++ "ago".toList))).mpr rfl
    have single : afterPlural (plural ++ (lastGap ++ "ago".toList)) = lastGap ++ "ago".toList := by
      rcases number with rfl | rfl
      · exact afterPlural_run lastGap _ lastRun
      · rfl
    have last : Text.trimLeft (lastGap ++ "ago".toList) = "ago".toList :=
      lastRun.dropWhile 'a' _ rfl
    have spaced := List.length_pos_iff.mpr run.nonempty
    have separated := List.length_pos_iff.mpr lastRun.nonempty
    simp only [readUnitAgo?, unitText, find?_unit, named, single, last, Option.bind_eq_bind,
      Option.bind_some]
    refine if_pos ⟨?_, ?_, trivial⟩ <;> simp only [List.length_append] <;> omega

/-- A text has the form of a distance in one way at most: the digits are those at its front, and the
rest says which unit it is. White space follows the digits, so they end there. -/
theorem isDistance_iff (cs digits : List Char) (unit : TimeUnit) :
    IsDistance cs digits unit ↔ cs.takeWhile Text.isAnyDigit = digits ∧ digits ≠ [] ∧
      readUnitAgo? (cs.dropWhile Text.isAnyDigit) = some unit := by
  rw [readUnitAgo?_eq_some_iff]
  constructor
  · rintro ⟨run, rest, ago, rfl⟩
    obtain ⟨gap, plural, lastGap, spaced, number, separated, rfl⟩ := ago
    obtain ⟨c, others, rfl⟩ := List.exists_cons_of_ne_nil spaced.nonempty
    have ends := Text.isAnyDigit_of_isBlank c (spaced.all c List.mem_cons_self)
    rw [List.cons_append, run.takeWhile c _ ends, run.dropWhile c _ ends, ← List.cons_append]
    exact ⟨rfl, run.nonempty, _, plural, lastGap, spaced, number, separated, rfl⟩
  · rintro ⟨rfl, some, ago⟩
    exact ⟨⟨some, fun c => List.mem_takeWhile_imp⟩, _, ago, List.takeWhile_append_dropWhile.symm⟩

/-- What reading makes of a distance depends on its number alone: first on whether it can be read,
and then on how far it reaches. -/
theorem readRelative_of_isDistance (cs digits : List Char) (unit : TimeUnit)
    (distance : IsDistance cs digits unit) :
    readRelative cs =
      if !digits.all Char.isDigit || greatestCount < Text.ofDigits digits then
        .error .unreadableNumber
      else if furthestMinutes / unit.minutes < Text.ofDigits digits then
        .error (.tooLarge (Text.ofDigits digits) unit)
      else .ok (Text.ofDigits digits * unit.minutes) := by
  obtain ⟨rfl, some, ago⟩ := (isDistance_iff cs digits unit).mp distance
  simp only [readRelative, ago]
  rw [if_neg]
  rwa [List.isEmpty_iff]

/-- The limits that are set for the units are one limit in minutes, since dividing by the minutes of
a unit rounds down. -/
theorem le_limit_iff (count : Nat) (unit : TimeUnit) :
    count ≤ furthestMinutes / unit.minutes ↔ count * unit.minutes ≤ furthestMinutes := by
  refine Nat.le_div_iff_mul_le ?_
  cases unit <;> decide

section Classes

variable {cs digits : List Char} {unit : TimeUnit} (distance : IsDistance cs digits unit)

include distance

/-- A number in ASCII digits that does not reach too far back is read. That 64 bits hold it need not
be asked, for the furthest distance is a number that they hold. -/
theorem readRelative_eq_ok (ascii : digits.all Char.isDigit = true)
    (near : Text.ofDigits digits * unit.minutes ≤ furthestMinutes) :
    readRelative cs = .ok (Text.ofDigits digits * unit.minutes) := by
  have limit := (le_limit_iff _ unit).mpr near
  have held : Text.ofDigits digits ≤ greatestCount :=
    calc Text.ofDigits digits
        ≤ furthestMinutes / unit.minutes := limit
      _ ≤ furthestMinutes := Nat.div_le_self _ _
      _ ≤ greatestCount := by decide
  simp [readRelative_of_isDistance cs digits unit distance, ascii, Nat.not_lt.mpr held,
    Nat.not_lt.mpr limit]

/-- Digits of other scripts cannot be read, nor can a number that 64 bits do not hold. -/
theorem readRelative_unreadable
    (unreadable : digits.all Char.isDigit = true → greatestCount < Text.ofDigits digits) :
    readRelative cs = .error .unreadableNumber := by
  rw [readRelative_of_isDistance cs digits unit distance, if_pos]
  cases ascii : digits.all Char.isDigit with
  | false => rfl
  | true => simpa using unreadable ascii

/-- A number that can be read may reach too far back, and then it is named together with its
unit. -/
theorem readRelative_tooLarge (ascii : digits.all Char.isDigit = true)
    (held : Text.ofDigits digits ≤ greatestCount)
    (far : furthestMinutes < Text.ofDigits digits * unit.minutes) :
    readRelative cs = .error (.tooLarge (Text.ofDigits digits) unit) := by
  have beyond : furthestMinutes / unit.minutes < Text.ofDigits digits :=
    Nat.lt_of_not_le fun limit => Nat.not_le.mpr far ((le_limit_iff _ unit).mp limit)
  simp [readRelative_of_isDistance cs digits unit distance, ascii, Nat.not_lt.mpr held, beyond]

end Classes

/-- A text of another form is no distance: it has no digits at its front, or no unit after them. -/
theorem readRelative_of_not_isDistance (cs : List Char)
    (other : ∀ digits unit, ¬ IsDistance cs digits unit) :
    readRelative cs = .error .notRelative := by
  simp only [isDistance_iff, not_and] at other
  rw [readRelative]
  cases ago : readUnitAgo? (cs.dropWhile Text.isAnyDigit) with
  | none => rfl
  | some unit =>
    have none : cs.takeWhile Text.isAnyDigit = [] :=
      Classical.byContradiction fun digits => other _ unit rfl digits ago
    simp only [none, List.isEmpty_nil, if_true]

/-- Reading finds a number of minutes only in a distance that can be used. In the other cases the
reading fails. -/
theorem exists_distance_of_readRelative_eq_ok (cs : List Char) (minutes : Nat)
    (read : readRelative cs = .ok minutes) :
    ∃ digits unit, IsDistance cs digits unit ∧ digits.all Char.isDigit = true ∧
      Text.ofDigits digits * unit.minutes ≤ furthestMinutes := by
  by_cases form : ∃ digits unit, IsDistance cs digits unit
  · obtain ⟨digits, unit, distance⟩ := form
    rw [readRelative_of_isDistance cs digits unit distance] at read
    split at read
    · cases read
    · next readable =>
      split at read
      · cases read
      · next limit =>
        rw [Bool.or_eq_true, not_or, Bool.not_eq_true', Bool.not_eq_false] at readable
        exact ⟨digits, unit, distance, readable.1, (le_limit_iff _ unit).mp (Nat.not_lt.mp limit)⟩
  · have other := readRelative_of_not_isDistance cs fun digits unit distance =>
      form ⟨digits, unit, distance⟩
    cases other.symm.trans read

end CalendarDial.Calendar
