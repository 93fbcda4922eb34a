import CalendarDial.Calendar.Forms
import CalendarDial.Proofs.Text.Runs

/-!
# The form of RFC 3339

A timestamp of RFC 3339 is a row of fields with a fixed number of digits each, a fraction of a
second with any number of them, and an offset. What the strict form reads is exactly what is written
in this way, and it reads the numbers that the fields denote.
-/

namespace CalendarDial.Calendar

open Text (Run)

/-- A field of so many digits. -/
structure IsField (width : Nat) (cs : List Char) : Prop where
  length : cs.length = width
  digits : cs.all Char.isDigit = true

/-- An offset as it is written: a letter for absolute time, or a sign with hours and minutes. -/
inductive WrittenOffset where
  | absolute (letter : Char)
  | signed (sign : Char) (hours minutes : List Char)

namespace WrittenOffset

/-- The text of the offset. -/
def chars : WrittenOffset → List Char
  | absolute letter => [letter]
  | signed sign hours minutes => sign :: (hours ++ ':' :: minutes)

/-- The letter is a `Z` in either case, the sign is one of three, and there are such hours and
minutes. -/
def WellFormed : WrittenOffset → Prop
  | absolute letter => letter = 'Z' ∨ letter = 'z'
  | signed sign hours minutes =>
    (sign = '+' ∨ sign = '-' ∨ sign = '\u2212') ∧ IsField 2 hours ∧ IsField 2 minutes ∧
      Text.ofDigits hours ≤ 23 ∧ Text.ofDigits minutes ≤ 59

/-- The seconds by which the local clock is ahead of absolute time. -/
def seconds : WrittenOffset → Int
  | absolute _ => 0
  | signed sign hours minutes =>
    let size : Int := (Text.ofDigits hours * 3600 + Text.ofDigits minutes * 60 : Nat)
    if sign = '+' then size else -size

end WrittenOffset

/-- A timestamp as it is written, field by field. -/
structure WrittenStamp where
  year : List Char
  month : List Char
  day : List Char
  mark : Char
  hour : List Char
  minute : List Char
  second : List Char
  fraction : Option (List Char)
  offset : WrittenOffset

namespace WrittenStamp

/-- The text of the date. -/
def dateChars (stamp : WrittenStamp) : List Char :=
  stamp.year ++ '-' :: (stamp.month ++ '-' :: stamp.day)

/-- The text of the fraction, with its point. -/
def fractionChars : Option (List Char) → List Char
  | none => []
  | some digits => '.' :: digits

/-- The text of the timestamp. -/
def chars (stamp : WrittenStamp) : List Char :=
  stamp.dateChars ++ stamp.mark :: (stamp.hour ++ ':' :: (stamp.minute ++ ':' :: (stamp.second ++
    (fractionChars stamp.fraction ++ stamp.offset.chars))))

/-- The year has four digits, the other fields have two, the mark between date and time is one of
three, and a fraction has one digit or more. -/
structure WellFormed (stamp : WrittenStamp) : Prop where
  year : IsField 4 stamp.year
  month : IsField 2 stamp.month
  day : IsField 2 stamp.day
  mark : stamp.mark = 'T' ∨ stamp.mark = 't' ∨ stamp.mark = ' '
  hour : IsField 2 stamp.hour
  minute : IsField 2 stamp.minute
  second : IsField 2 stamp.second
  fraction : ∀ digits, stamp.fraction = some digits → Run Char.isDigit digits
  offset : stamp.offset.WellFormed

/-- The date that is written. -/
def date (stamp : WrittenStamp) : Date :=
  ⟨Text.ofDigits stamp.year, Text.ofDigits stamp.month, Text.ofDigits stamp.day⟩

/-- The nanoseconds that a fraction denotes. Digits after the ninth do not count. -/
def nanosecond : Option (List Char) → Nat
  | none => 0
  | some digits => Text.ofDigits (digits.take 9) * 10 ^ (9 - (digits.take 9).length)

/-- The date and the time of day that are written. -/
def localTime (stamp : WrittenStamp) : LocalTime :=
  ⟨stamp.date, Text.ofDigits stamp.hour, Text.ofDigits stamp.minute, Text.ofDigits stamp.second,
    nanosecond stamp.fraction⟩

end WrittenStamp

namespace Scan

/-- A character is taken off exactly if the text begins with it, and the rest is what follows. -/
theorem char_eq_some_iff (expected : Char) (cs rest : List Char) :
    char expected cs = some rest ↔ cs = expected :: rest := by
  cases cs with
  | nil => simp [char]
  | cons c cs => simp [char]

/-- The mark between date and time is one of three, and only one character is taken off. -/
theorem dateTimeSeparator_eq_some_iff (cs rest : List Char) :
    dateTimeSeparator cs = some rest ↔
      ∃ mark, (mark = 'T' ∨ mark = 't' ∨ mark = ' ') ∧ cs = mark :: rest := by
  cases cs with
  | nil => simp [dateTimeSeparator]
  | cons c cs =>
    rw [dateTimeSeparator, Option.ite_none_right_eq_some, Option.some.injEq]
    constructor
    · rintro ⟨mark, rfl⟩
      exact ⟨c, mark, rfl⟩
    · rintro ⟨_, mark, same⟩
      obtain ⟨rfl, rfl⟩ := List.cons.inj same
      exact ⟨mark, rfl⟩

/-- A number of a given width is taken off exactly if the text begins with a field of this width.
The number is the one that the field denotes. -/
theorem fixed_eq_some_iff (width value : Nat) (cs rest : List Char) :
    fixed width cs = some (value, rest) ↔
      ∃ digits, IsField width digits ∧ value = Text.ofDigits digits ∧ cs = digits ++ rest := by
  simp only [fixed, Option.ite_none_right_eq_some, Option.some.injEq, Prod.mk.injEq]
  constructor
  · rintro ⟨⟨length, digits⟩, rfl, rfl⟩
    exact ⟨_, ⟨length, digits⟩, rfl, (List.take_append_drop width cs).symm⟩
  · rintro ⟨digits, ⟨rfl, all⟩, rfl, rfl⟩
    simp [all]

/-- A fraction is read as far as its digits go. Then there is a character that is no digit, and
without a fraction one that is no point either. -/
theorem fraction_append (written : Option (List Char)) (c : Char) (rest : List Char)
    (formed : ∀ digits, written = some digits → Run Char.isDigit digits) (noPoint : c ≠ '.')
    (ends : c.isDigit = false) :
    fraction (WrittenStamp.fractionChars written ++ c :: rest) =
      some (WrittenStamp.nanosecond written, c :: rest) := by
  cases written with
  | none =>
    rw [WrittenStamp.fractionChars, List.nil_append, fraction.eq_def]
    split
    · next same => exact absurd (List.cons.inj same).1 noPoint
    · rfl
  | some digits =>
    have run := formed digits rfl
    have all := run.takeWhile c rest ends
    rw [WrittenStamp.fractionChars, List.cons_append, fraction, all, if_neg, List.drop_left]
    · rfl
    · rw [List.isEmpty_iff]
      exact run.nonempty

/-- What is read as a fraction is written as one, or nothing is. The digits that were taken off are
as many as there were, and at least one. -/
theorem exists_of_fraction (value : Nat) (cs rest : List Char)
    (read : fraction cs = some (value, rest)) :
    ∃ written, (∀ digits, written = some digits → Run Char.isDigit digits) ∧
      value = WrittenStamp.nanosecond written ∧
        cs = WrittenStamp.fractionChars written ++ rest := by
  rw [fraction.eq_def] at read
  split at read
  · next cs =>
    simp only [Option.ite_none_left_eq_some, List.isEmpty_iff, Option.some.injEq,
      Prod.mk.injEq] at read
    obtain ⟨nonempty, rfl, rfl⟩ := read
    refine ⟨some (cs.takeWhile Char.isDigit), ?_, rfl, ?_⟩
    · rintro _ ⟨⟩
      exact ⟨nonempty, fun c => List.mem_takeWhile_imp⟩
    · have split := List.prefix_iff_eq_append.mp (List.takeWhile_prefix (l := cs) Char.isDigit)
      rw [WrittenStamp.fractionChars, List.cons_append, split]
  · cases read
    exact ⟨none, nofun, rfl, rfl⟩

/-- A sign is one of three characters, and all but the plus are negative. The third is the minus
sign that is not in ASCII. -/
theorem sign_eq_some_iff (cs rest : List Char) (negative : Bool) :
    sign cs = some (negative, rest) ↔
      ∃ c, (c = '+' ∨ c = '-' ∨ c = '\u2212') ∧ negative = !decide (c = '+') ∧ cs = c :: rest := by
  cases cs with
  | nil => simp [sign]
  | cons c cs =>
    rw [sign]
    constructor
    · intro read
      split at read
      · next plus =>
        cases read
        exact ⟨c, .inl plus, by simp [plus], rfl⟩
      · next other =>
        split at read
        · next minus =>
          cases read
          exact ⟨c, .inr minus, by simp [other], rfl⟩
        · cases read
    · rintro ⟨_, signs, rfl, same⟩
      obtain ⟨rfl, rfl⟩ := List.cons.inj same
      rcases signs with rfl | rfl | rfl <;> rfl

/-- A written offset is read, with the seconds that it stands for, and nothing is left. -/
theorem offset_chars (written : WrittenOffset) (formed : written.WellFormed) :
    offset (char ':') written.chars = some (written.seconds, []) := by
  cases written with
  | absolute letter => rcases formed with rfl | rfl <;> rfl
  | signed c hours minutes =>
    obtain ⟨signs, hoursField, minutesField, hoursLast, minutesLast⟩ := formed
    have signRead := (sign_eq_some_iff (c :: (hours ++ ':' :: minutes)) _ _).mpr
      ⟨c, signs, rfl, rfl⟩
    have hoursRead := (fixed_eq_some_iff 2 _ (hours ++ ':' :: minutes) _).mpr
      ⟨hours, hoursField, rfl, rfl⟩
    have colonRead := (char_eq_some_iff ':' (':' :: minutes) minutes).mpr rfl
    have minutesRead := (fixed_eq_some_iff 2 _ minutes []).mpr
      ⟨minutes, minutesField, rfl, (List.append_nil _).symm⟩
    rw [WrittenOffset.chars, offset.eq_def]
    split
    · next same => rcases signs with rfl | rfl | rfl <;> cases same
    · next same => rcases signs with rfl | rfl | rfl <;> cases same
    · simp only [signRead, hoursRead, colonRead, minutesRead, Option.bind_eq_bind, Option.bind_some]
      rw [if_pos ⟨minutesLast, hoursLast⟩]
      rcases signs with rfl | rfl | rfl <;> rfl

/-- What is read as an offset is written as one: a letter, or a sign and two fields with a colon
between them. -/
theorem exists_of_offset (seconds : Int) (cs rest : List Char)
    (read : offset (char ':') cs = some (seconds, rest)) :
    ∃ written : WrittenOffset, written.WellFormed ∧ seconds = written.seconds ∧
      cs = written.chars ++ rest := by
  rw [offset.eq_def] at read
  split at read
  · cases read
    exact ⟨.absolute 'Z', .inl rfl, rfl, rfl⟩
  · cases read
    exact ⟨.absolute 'z', .inr rfl, rfl, rfl⟩
  · simp only [Option.bind_eq_bind, Option.bind_eq_some_iff, Prod.exists,
      Option.ite_none_right_eq_some, Option.some.injEq, Prod.mk.injEq, sign_eq_some_iff,
      fixed_eq_some_iff, char_eq_some_iff] at read
    obtain ⟨_, _, ⟨c, signs, rfl, rfl⟩, _, _, ⟨hours, hoursField, rfl, rfl⟩, _, rfl, _, _,
      ⟨minutes, minutesField, rfl, rfl⟩, ⟨minutesLast, hoursLast⟩, rfl, rfl⟩ := read
    refine ⟨.signed c hours minutes,
      ⟨signs, hoursField, minutesField, hoursLast, minutesLast⟩, ?_, ?_⟩
    · rcases signs with rfl | rfl | rfl <;> rfl
    · simp only [WrittenOffset.chars, List.cons_append, List.append_assoc]

/-- An offset begins with a character that ends a number and a fraction: a letter or a sign. -/
theorem exists_of_wellFormed (written : WrittenOffset) (formed : written.WellFormed) :
    ∃ c rest, written.chars = c :: rest ∧ c ≠ '.' ∧ c.isDigit = false := by
  cases written with
  | absolute letter => rcases formed with rfl | rfl <;> exact ⟨_, _, rfl, by decide, rfl⟩
  | signed c hours minutes =>
    obtain ⟨rfl | rfl | rfl, -⟩ := formed <;> exact ⟨_, _, rfl, by decide, rfl⟩

end Scan

/-- A written timestamp is read, and its time is the one that is written, if there is such a time.
Each field is taken off in turn, and after the fraction comes the offset, whose first character ends
it. -/
theorem readStrict?_chars (stamp : WrittenStamp) (formed : stamp.WellFormed) :
    readStrict? stamp.chars = stamp.localTime.at? stamp.offset.seconds := by
  have field (width : Nat) (cs rest : List Char) (isField : IsField width cs) :
      Scan.fixed width (cs ++ rest) = some (Text.ofDigits cs, rest) :=
    (Scan.fixed_eq_some_iff width _ _ _).mpr ⟨cs, isField, rfl, rfl⟩
  have mark (c : Char) (rest : List Char) : Scan.char c (c :: rest) = some rest :=
    (Scan.char_eq_some_iff c _ _).mpr rfl
  have separator (rest : List Char) :
      Scan.dateTimeSeparator (stamp.mark :: rest) = some rest :=
    (Scan.dateTimeSeparator_eq_some_iff _ _).mpr ⟨_, formed.mark, rfl⟩
  have offset := Scan.offset_chars stamp.offset formed.offset
  obtain ⟨c, rest, begins, noPoint, ends⟩ := Scan.exists_of_wellFormed stamp.offset formed.offset
  have fraction := Scan.fraction_append stamp.fraction c rest formed.fraction noPoint ends
  rw [← begins] at fraction
  simp only [readStrict?, WrittenStamp.chars, WrittenStamp.dateChars, List.append_assoc,
    List.cons_append, Option.bind_eq_bind, Option.bind_some, mark, separator, fraction, offset,
    field 4 _ _ formed.year, field 2 _ _ formed.month, field 2 _ _ formed.day,
    field 2 _ _ formed.hour, field 2 _ _ formed.minute, field 2 _ _ formed.second]
  rfl

/-- What the strict form reads is a written timestamp, put together from the pieces that were taken
off. -/
theorem exists_of_readStrict? (cs : List Char) (time : ZonedTime)
    (read : readStrict? cs = some time) :
    ∃ stamp : WrittenStamp, stamp.WellFormed ∧ cs = stamp.chars := by
  simp only [readStrict?, Option.bind_eq_bind, Option.bind_eq_some_iff, Prod.exists,
    Option.ite_none_right_eq_some, Scan.fixed_eq_some_iff, Scan.char_eq_some_iff,
    Scan.dateTimeSeparator_eq_some_iff, List.isEmpty_iff] at read
  obtain ⟨_, _, ⟨year, isYear, rfl, rfl⟩, _, rfl, _, _, ⟨month, isMonth, rfl, rfl⟩, _, rfl, _, _,
    ⟨day, isDay, rfl, rfl⟩, _, ⟨mark, isMark, rfl⟩, _, _, ⟨hour, isHour, rfl, rfl⟩, _, rfl, _, _,
    ⟨minute, isMinute, rfl, rfl⟩, _, rfl, _, _, ⟨second, isSecond, rfl, rfl⟩, _, _, readFraction,
    _, _, readOffset, rfl, -⟩ := read
  obtain ⟨fraction, isFraction, rfl, rfl⟩ := Scan.exists_of_fraction _ _ _ readFraction
  obtain ⟨offset, isOffset, rfl, rfl⟩ := Scan.exists_of_offset _ _ _ readOffset
  refine ⟨⟨year, month, day, mark, hour, minute, second, fraction, offset⟩,
    ⟨isYear, isMonth, isDay, isMark, isHour, isMinute, isSecond, isFraction, isOffset⟩, ?_⟩
  simp only [WrittenStamp.chars, WrittenStamp.dateChars, List.append_assoc, List.cons_append,
    List.append_nil]

end CalendarDial.Calendar
