import CalendarDial.Calendar.Forms
import CalendarDial.Proofs.Calendar.Date
import CalendarDial.Proofs.Calendar.Form

/-!
# What a clock shows and what is written

A clock shows every instant as a date and a time of day, and from these the instant is found again,
to the second. Written in the form of RFC 3339 for absolute time, such a time is read back by the
relaxed form, whatever the year; the strict form reads it as long as the year has four digits and no
sign.
-/

namespace CalendarDial.Calendar

namespace LocalTime

/-- What a clock shows is a time that there is: every day has a date, and what is left of the day
makes hours, minutes and seconds. -/
theorem valid_ofInstant (ms : Int) : (ofInstant ms).Valid := by
  refine ⟨(Date.toDays_ofDays _).1, ?_⟩
  simp only [ofInstant, dayMs]
  omega

/-- What a clock shows is the second that an instant falls in, since the date counts its days and
the time of day the rest. -/
theorem seconds_ofInstant (ms : Int) : (ofInstant ms).seconds = ms / 1000 := by
  simp only [seconds, ofInstant, (Date.toDays_ofDays _).2, dayMs]
  omega

/-- From what a clock shows the instant is found again, to the second. Of the second nothing is
lost, and on a clock without an offset nothing is moved. -/
theorem at?_ofInstant (ms : Int) (kept : IsKept ms) :
    (ofInstant ms).at? 0 = some ⟨ms / 1000 * 1000, 0⟩ := by
  have whole : (ofInstant ms).millis = 0 := by
    have second : (ofInstant ms).second ≠ 60 := by
      simp only [ofInstant]
      omega
    have exact : (ofInstant ms).nanosecond = 0 := rfl
    rw [millis, if_neg second, exact]
    rfl
  simp only [at?, seconds_ofInstant, whole, Int.sub_zero, Int.add_zero]
  exact if_pos ⟨valid_ofInstant ms, kept.1, kept.2, kept⟩

/-- At the instant of a time a clock shows this time, to the second. A date is the only one of its
day, and below sixty the seconds determine the time of day. -/
theorem ofInstant_of_seconds (time : LocalTime) (valid : time.Valid) (ordinary : time.second ≤ 59)
    (ms : Int) (instant : ms / 1000 = time.seconds) :
    ofInstant ms = { time with nanosecond := 0 } := by
  obtain ⟨date, hour, minute, -⟩ := valid
  rw [seconds] at instant
  have days : ms / dayMs = time.date.toDays := by
    rw [dayMs]
    omega
  have rest : (ms % dayMs / 1000).toNat = time.hour * 3600 + time.minute * 60 + time.second := by
    rw [dayMs]
    omega
  simp only [ofInstant, days, rest, Date.ofDays_toDays _ date, LocalTime.mk.injEq, true_and,
    and_true]
  omega

end LocalTime

open Text (Run)

namespace Scan

/-- Digits up to the width are taken off if another character follows. Whether the width is used up
or not, the run ends there. -/
theorem upTo_append (width : Nat) (cs rest : List Char) (c : Char) (digits : Run Char.isDigit cs)
    (fits : cs.length ≤ width) (ends : c.isDigit = false) :
    upTo width (cs ++ c :: rest) = some (Text.ofDigits cs, c :: rest) := by
  have taken : ((cs ++ c :: rest).take width).takeWhile Char.isDigit = cs := by
    rw [List.take_append, List.take_of_length_le fits, List.takeWhile_append_of_pos digits.all]
    cases width - cs.length with
    | zero => rw [List.take_zero, List.takeWhile_nil, List.append_nil]
    | succ more =>
      rw [List.take_succ_cons, List.takeWhile_cons_of_neg (by simp [ends]), List.append_nil]
  simp only [upTo, taken, List.drop_left]
  rw [if_neg]
  rw [List.isEmpty_iff]
  exact digits.nonempty

end Scan

namespace Relaxed

/-- A number of two digits is read as a field, without the zero that may be in front. -/
theorem field_padded (n : Nat) (short : n < 100) (c : Char) (rest : List Char)
    (ends : c.isDigit = false) : field (Text.padded 2 n ++ c :: rest) = some (n, c :: rest) := by
  have digits := Text.run_padded 2 n
  rw [field, digits.trimLeft, Scan.upTo_append 2 _ rest c digits
    (Text.length_padded 2 n (by decide) short).le ends, Text.ofDigits_padded]

/-- A year without a sign is read by its four digits at most. A digit is neither of the two
signs. -/
theorem year_digits (cs rest : List Char) (digits : Run Char.isDigit cs) :
    year (cs ++ rest) = (Scan.upTo 4 (cs ++ rest)).map fun (value, rest) => (value, rest) := by
  have unsigned (sign : Char) (others : List Char) (same : cs ++ rest = sign :: others) :
      sign.isDigit = true := by
    obtain ⟨c, more, rfl⟩ := List.exists_cons_of_ne_nil digits.nonempty
    obtain ⟨rfl, -⟩ := List.cons.inj same
    exact digits.all c List.mem_cons_self
  rw [year.eq_def, digits.trimLeft]
  split
  · next others same => exact absurd (unsigned '-' others same) (by decide)
  · next others same => exact absurd (unsigned '+' others same) (by decide)
  · rfl

/-- A year is read as it is written. A sign is written for just those years that four digits do not
hold, and with a sign all digits are read. -/
theorem year_yearText (n : Int) (rest : List Char) :
    year (Date.yearText n ++ '-' :: rest) = some (n, '-' :: rest) := by
  have digits := Text.run_padded 4 n.natAbs
  have whole := Scan.upTo_append (Text.padded 4 n.natAbs ++ '-' :: rest).length _ rest '-' digits
    (by simp) rfl
  rw [Date.yearText]
  by_cases negative : n < 0
  · have number : -(n.natAbs : Int) = n := by omega
    rw [if_pos negative]
    show (Scan.all (Text.padded 4 n.natAbs ++ '-' :: rest)).map _ = _
    rw [Scan.all, whole, Text.ofDigits_padded, Option.map_some]
    exact congrArg (fun year => some (year, '-' :: rest)) number
  have number : (n.natAbs : Int) = n := by omega
  by_cases late : 9999 < n
  · rw [if_neg negative, if_pos late]
    show (Scan.all (Text.padded 4 n.natAbs ++ '-' :: rest)).map _ = _
    rw [Scan.all, whole, Text.ofDigits_padded, Option.map_some]
    exact congrArg (fun year => some (year, '-' :: rest)) number
  · have fits := Text.length_padded 4 n.natAbs (by decide) (by omega)
    rw [if_neg negative, if_neg late, year_digits _ _ digits,
      Scan.upTo_append 4 _ rest '-' digits fits.le rfl, Text.ofDigits_padded, Option.map_some]
    exact congrArg (fun year => some (year, '-' :: rest)) number

end Relaxed

/-- Every field of a time but the year has two digits at most. A month has at most 31 days. -/
theorem LocalTime.Valid.fields_lt {time : LocalTime} (valid : time.Valid) :
    time.date.month < 100 ∧ time.date.day < 100 ∧ time.hour < 100 ∧ time.minute < 100 ∧
      time.second < 100 := by
  obtain ⟨⟨-, month, -, day⟩, hour, minute, second⟩ := valid
  have short : daysInMonth time.date.year time.date.month ≤ 31 := by
    rw [daysInMonth]
    split <;> split <;> omega
  omega

/-- The form of RFC 3339 for absolute time is read back by the relaxed form, field by field,
whatever the year. -/
theorem readRelaxed?_utcForm (time : LocalTime) (valid : time.Valid) (whole : time.nanosecond = 0) :
    readRelaxed? (utcForm time) = time.at? 0 := by
  obtain ⟨⟨year, month, day⟩, hour, minute, second, nanosecond⟩ := time
  subst whole
  obtain ⟨shortMonth, shortDay, shortHour, shortMinute, shortSecond⟩ := valid.fields_lt
  have hyphen (rest : List Char) : Relaxed.separator '-' ('-' :: rest) = some rest := rfl
  have colon (rest : List Char) : Relaxed.separator ':' (':' :: rest) = some rest := rfl
  have mark (rest : List Char) : Scan.dateTimeSeparator ('T' :: rest) = some rest := rfl
  simp only [readRelaxed?, utcForm, Date.text, clockForm, List.append_assoc, List.cons_append,
    Option.bind_eq_bind, Option.bind_some, Relaxed.year_yearText, hyphen, colon, mark,
    Relaxed.field_padded month shortMonth '-' _ rfl, Relaxed.field_padded day shortDay 'T' _ rfl,
    Relaxed.field_padded hour shortHour ':' _ rfl,
    Relaxed.field_padded minute shortMinute ':' _ rfl,
    Relaxed.field_padded second shortSecond 'Z' _ rfl]
  rfl

/-- A padded number that fits is a field: it has the width and only digits. -/
theorem isField_padded (width n : Nat) (some : 0 < width) (fits : n < 10 ^ width) :
    IsField width (Text.padded width n) :=
  ⟨Text.length_padded width n some fits, Text.all_isDigit_padded width n⟩

/-- A time in the form of RFC 3339 for absolute time, field by field. -/
def utcStamp (time : LocalTime) : WrittenStamp :=
  ⟨Date.yearText time.date.year, Text.padded 2 time.date.month, Text.padded 2 time.date.day, 'T',
    Text.padded 2 time.hour, Text.padded 2 time.minute, Text.padded 2 time.second, none,
    .absolute 'Z'⟩

/-- The form of RFC 3339 for absolute time is read back by the strict form if the year has four
digits. It is then a timestamp written field by field, and its fields denote the time. -/
theorem readStrict?_utcForm (time : LocalTime) (valid : time.Valid) (whole : time.nanosecond = 0)
    (early : 0 ≤ time.date.year) (late : time.date.year ≤ 9999) :
    readStrict? (utcForm time) = time.at? 0 := by
  have written : utcForm time = (utcStamp time).chars := by
    simp only [utcForm, Date.text, clockForm, WrittenStamp.chars, WrittenStamp.dateChars, utcStamp,
      WrittenStamp.fractionChars, WrittenOffset.chars, List.append_assoc, List.cons_append,
      List.nil_append]
  have year : Date.yearText time.date.year = Text.padded 4 time.date.year.natAbs := by
    rw [Date.yearText, if_neg (by omega), if_neg (by omega)]
  obtain ⟨shortMonth, shortDay, shortHour, shortMinute, shortSecond⟩ := valid.fields_lt
  have formed : (utcStamp time).WellFormed := by
    refine ⟨?_, isField_padded 2 _ (by decide) shortMonth, isField_padded 2 _ (by decide) shortDay,
      .inl rfl, isField_padded 2 _ (by decide) shortHour,
      isField_padded 2 _ (by decide) shortMinute, isField_padded 2 _ (by decide) shortSecond,
      fun digits given => absurd given.symm (Option.some_ne_none digits), .inl rfl⟩
    rw [utcStamp, year]
    exact isField_padded 4 _ (by decide) (by omega)
  have denoted : (utcStamp time).localTime = time := by
    have number : (time.date.year.natAbs : Int) = time.date.year := Int.natAbs_of_nonneg early
    simp only [WrittenStamp.localTime, WrittenStamp.date, WrittenStamp.nanosecond, utcStamp, year,
      Text.ofDigits_padded, number, ← whole]
  rw [written, readStrict?_chars _ formed, denoted]
  rfl

/-- The instants that are kept, by their first and their last millisecond. A second is kept as a
whole or not at all. -/
theorem isKept_iff (ms : Int) :
    IsKept ms ↔ -8334601228800000 ≤ ms ∧ ms ≤ 8210266876799999 := by
  simp only [IsKept, firstSecond, lastSecond]
  omega

/-- An instant that is kept is printed as what a clock shows. -/
theorem toList_utcText (ms : Int) (kept : IsKept ms) :
    (utcText ms).toList = utcForm (LocalTime.ofInstant ms) := by
  rw [utcText, textOfInstant, String.toList_ofList, if_pos kept]

/-- A printed instant is read back by the relaxed form, to the second, since what is printed is what
a clock shows. -/
theorem readRelaxed?_utcText (ms : Int) (kept : IsKept ms) :
    readRelaxed? (utcText ms).toList = some ⟨ms / 1000 * 1000, 0⟩ := by
  rw [toList_utcText ms kept, readRelaxed?_utcForm _ (LocalTime.valid_ofInstant ms) rfl,
    LocalTime.at?_ofInstant ms kept]

/-- It is read back by the strict form too if its year has four digits. Other years are printed with
a sign. -/
theorem readStrict?_utcText (ms : Int) (kept : IsKept ms)
    (early : 0 ≤ (LocalTime.ofInstant ms).date.year)
    (late : (LocalTime.ofInstant ms).date.year ≤ 9999) :
    readStrict? (utcText ms).toList = some ⟨ms / 1000 * 1000, 0⟩ := by
  rw [toList_utcText ms kept, readStrict?_utcForm _ (LocalTime.valid_ofInstant ms) rfl early late,
    LocalTime.at?_ofInstant ms kept]

end CalendarDial.Calendar
