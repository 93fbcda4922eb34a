import CalendarDial.Command.Run
import CalendarDial.Proofs.Calendar.Strict
import CalendarDial.Proofs.Calendar.Timestamp
import CalendarDial.Proofs.Command.Report
import CalendarDial.Proofs.Window.Hours

/-!
# The window command prints the hour that was written

A timestamp is turned into an instant, the instant is moved to the local clock and rounded down to
the full hour, and the full hour is turned into a date and an hour again. All of this cancels: what
is printed is the date and the hour as they were written, with the offset as it was written, and the
end has the hour on the other side of the dial.
-/

namespace CalendarDial

open Calendar

namespace Calendar

/-- The offset as it is printed: with hours and minutes as written, and a minus sign only if it is
negative. -/
def WrittenOffset.shown : WrittenOffset → List Char
  | absolute _ => ['+', '0', '0', ':', '0', '0']
  | signed sign hours minutes =>
    (if sign = '+' ∨ Text.ofDigits hours = 0 ∧ Text.ofDigits minutes = 0 then '+' else '-') ::
      (hours ++ ':' :: minutes)

/-- A written offset is less than a day, since it is one that is read. -/
theorem WrittenOffset.seconds_lt (written : WrittenOffset) (formed : written.WellFormed) :
    -86400 < written.seconds ∧ written.seconds < 86400 :=
  Scan.offset_lt _ _ _ _ (Scan.offset_chars written formed)

/-- A field is what its number is padded to, because the field has that many digits. -/
theorem IsField.padded {width : Nat} {cs : List Char} (field : IsField width cs)
    (some : 0 < width) : Text.padded width (Text.ofDigits cs) = cs := by
  obtain ⟨rfl, digits⟩ := field
  exact Text.padded_ofDigits cs digits (List.length_pos_iff.mp some)

/-- A written offset is printed as it is written. Its seconds divide into the hours and the minutes
again, and it is negative unless it is written with a plus or is zero. -/
theorem offsetText_seconds (written : WrittenOffset) (formed : written.WellFormed) :
    offsetText written.seconds = String.ofList written.shown := by
  cases written with
  | absolute letter =>
    change offsetText 0 = String.ofList ['+', '0', '0', ':', '0', '0']
    decide +kernel
  | signed c hours minutes =>
    obtain ⟨signs, hoursField, minutesField, hoursLast, minutesLast⟩ := formed
    have size : (WrittenOffset.signed c hours minutes).seconds.natAbs =
        Text.ofDigits hours * 3600 + Text.ofDigits minutes * 60 := by
      simp only [WrittenOffset.seconds]
      split <;> omega
    have inHours : (Text.ofDigits hours * 3600 + Text.ofDigits minutes * 60) / 3600 =
        Text.ofDigits hours := by omega
    have inMinutes : (Text.ofDigits hours * 3600 + Text.ofDigits minutes * 60) / 60 % 60 =
        Text.ofDigits minutes := by omega
    have full : (Text.ofDigits hours * 3600 + Text.ofDigits minutes * 60) % 60 = 0 := by omega
    have sign : (WrittenOffset.signed c hours minutes).seconds < 0 ↔
        ¬ (c = '+' ∨ Text.ofDigits hours = 0 ∧ Text.ofDigits minutes = 0) := by
      simp only [WrittenOffset.seconds]
      by_cases plus : c = '+'
      · rw [if_pos plus]
        exact iff_of_false (by omega) fun not => not (.inl plus)
      · rw [if_neg plus, or_iff_right plus]
        omega
    simp only [offsetText, size, inHours, inMinutes, full, if_true, hoursField.padded (by decide),
      minutesField.padded (by decide), WrittenOffset.shown, sign, ite_not, List.append_nil,
      List.cons_append]

/-- The date of a written timestamp is printed as it is written, for its year has four digits and no
sign. -/
theorem text_date (stamp : WrittenStamp) (formed : stamp.WellFormed) :
    stamp.date.text = stamp.dateChars := by
  have year := Text.ofDigits_lt stamp.year formed.year.digits
  rw [formed.year.length] at year
  have digits : Date.yearText (Text.ofDigits stamp.year) = stamp.year := by
    rw [Date.yearText, if_neg (by omega), if_neg (by omega), Int.natAbs_natCast,
      formed.year.padded (by decide)]
  simp only [Date.text, WrittenStamp.date, digits, formed.month.padded (by decide),
    formed.day.padded (by decide), WrittenStamp.dateChars, List.append_assoc, List.cons_append]

/-- The nanoseconds of a fraction are less than a second, however many digits it has. -/
theorem nanosecond_lt (fraction : Option (List Char))
    (formed : ∀ digits, fraction = some digits → Text.Run Char.isDigit digits) :
    WrittenStamp.nanosecond fraction < 1000000000 :=
  Scan.fraction_lt _ _ _ (Scan.fraction_append fraction 'Z' [] formed (by decide) rfl)

/-- In every second but the one numbered sixty the milliseconds are less than a second. -/
theorem LocalTime.millis_lt (time : LocalTime) (ordinary : time.second ≤ 59)
    (fraction : time.nanosecond < 1000000000) : 0 ≤ time.millis ∧ time.millis < 1000 := by
  rw [millis, if_neg (by omega)]
  omega

/-- A clock shows so many full hours as an hour of the day. Full hours leave no minutes. -/
theorem LocalTime.hour_ofInstant (hours : Int) :
    (ofInstant (hours * Instant.hour)).hour = (hours % 24).toNat ∧
      (ofInstant (hours * Instant.hour)).minute = 0 := by
  simp only [ofInstant, dayMs, Instant.hour]
  omega

/-- The full hour that a timestamp was written in, counted on its local clock. -/
def WrittenStamp.hours (stamp : WrittenStamp) : Int :=
  stamp.date.toDays * 24 + Text.ofDigits stamp.hour

/-- A written time falls in the hour that is written, unless its second is numbered sixty. Minutes,
seconds and the fraction together are less than an hour. -/
theorem localMs_of_chars (stamp : WrittenStamp) (formed : stamp.WellFormed) (time : ZonedTime)
    (read : readStrict? stamp.chars = some time) (ordinary : Text.ofDigits stamp.second ≤ 59) :
    stamp.date.Valid ∧ Text.ofDigits stamp.hour ≤ 23 ∧ time.offsetSeconds = stamp.offset.seconds ∧
      time.InHour stamp.hours := by
  rw [readStrict?_chars stamp formed, LocalTime.at?, Option.ite_none_right_eq_some,
    Option.some.injEq] at read
  obtain ⟨⟨⟨date, hour, minute, -⟩, -⟩, rfl⟩ := read
  have millis := stamp.localTime.millis_lt ordinary (nanosecond_lt stamp.fraction formed.fraction)
  refine ⟨date, hour, rfl, ?_⟩
  simp only [ZonedTime.InHour, ZonedTime.localMs, WrittenStamp.hours, LocalTime.seconds,
    Instant.hour]
  simp only [WrittenStamp.localTime] at minute ordinary millis ⊢
  omega

/-- The full hour of a written time, written with the same date and offset. -/
def WrittenStamp.fullHour (stamp : WrittenStamp) : WrittenStamp :=
  { stamp with minute := ['0', '0'], second := ['0', '0'], fraction := none }

/-- The instant at which the hour of a written time begins, in milliseconds. -/
def WrittenStamp.hourStart (stamp : WrittenStamp) : Int :=
  stamp.hours * Instant.hour - stamp.offset.seconds * 1000

/-- An hour begins at a full second. -/
theorem WrittenStamp.hourStart_eq (stamp : WrittenStamp) :
    stamp.hourStart = (stamp.hours * 3600 - stamp.offset.seconds) * 1000 := by
  rw [hourStart, Instant.hour]
  omega

/-- The hour of a timestamp in a year of four digits is far from the ends of the calendar, and so is
everything within two days of it. There are more than two hundred thousand years on either side. -/
theorem isKept_near_hours (stamp : WrittenStamp) (formed : stamp.WellFormed)
    (date : stamp.date.Valid) (hour : Text.ofDigits stamp.hour ≤ 23) (ms : Int)
    (before : stamp.hours * Instant.hour - 172800000 ≤ ms)
    (after : ms ≤ stamp.hours * Instant.hour + 172800000) : IsKept ms := by
  have year := Text.ofDigits_lt stamp.year formed.year.digits
  rw [formed.year.length] at year
  have days := stamp.date.toDays_le date (Int.natCast_nonneg _) (by
    simp only [WrittenStamp.date]
    omega)
  rw [isKept_iff]
  simp only [WrittenStamp.hours, Instant.hour] at before after
  omega

/-- The full hour is read as the instant at which the hour begins. Its minutes, its second and its
fraction are zero, and date, hour and offset are as before. -/
theorem readStrict?_fullHour (stamp : WrittenStamp) (formed : stamp.WellFormed)
    (date : stamp.date.Valid) (hour : Text.ofDigits stamp.hour ≤ 23) :
    readStrict? stamp.fullHour.chars = some ⟨stamp.hourStart, stamp.offset.seconds⟩ := by
  have zeros : IsField 2 ['0', '0'] := ⟨rfl, rfl⟩
  have zero : Text.ofDigits ['0', '0'] = 0 := rfl
  have fullFormed : stamp.fullHour.WellFormed :=
    ⟨formed.year, formed.month, formed.day, formed.mark, formed.hour, zeros, zeros, nofun,
      formed.offset⟩
  have offset := stamp.offset.seconds_lt formed.offset
  have onClock := isKept_near_hours stamp formed date hour (stamp.hours * Instant.hour)
    (by omega) (by omega)
  have absolute := isKept_near_hours stamp formed date hour stamp.hourStart
    (by rw [WrittenStamp.hourStart]; omega) (by rw [WrittenStamp.hourStart]; omega)
  have seconds : stamp.fullHour.localTime.seconds = stamp.hours * 3600 := by
    simp only [LocalTime.seconds, WrittenStamp.localTime, WrittenStamp.fullHour, zero,
      WrittenStamp.hours, WrittenStamp.date]
    omega
  have valid : stamp.fullHour.localTime.Valid :=
    ⟨date, hour, Nat.zero_le _, Nat.zero_le _⟩
  have whole : stamp.fullHour.localTime.millis = 0 := by
    simp only [LocalTime.millis, WrittenStamp.localTime, WrittenStamp.fullHour, zero,
      WrittenStamp.nanosecond]
    rfl
  rw [IsKept, Instant.hour] at onClock
  rw [IsKept, stamp.hourStart_eq] at absolute
  rw [readStrict?_chars _ fullFormed, LocalTime.at?, seconds, whole, Int.add_zero, if_pos]
  · rw [stamp.hourStart_eq]
    rfl
  · refine ⟨valid, ?_⟩
    simp only [WrittenStamp.fullHour]
    omega

/-- The instant at which the hour begins is read back from what is printed for it, and so is the end
of the window. Both are full seconds, so nothing is lost in printing. -/
theorem readRelaxed?_hourStart (stamp : WrittenStamp) (formed : stamp.WellFormed)
    (date : stamp.date.Valid) (hour : Text.ofDigits stamp.hour ≤ 23) :
    readRelaxed? (utcText stamp.hourStart).toList = some ⟨stamp.hourStart, 0⟩ ∧
      readRelaxed? (utcText (stamp.hourStart + 43200000)).toList =
        some ⟨stamp.hourStart + 43200000, 0⟩ := by
  have offset := stamp.offset.seconds_lt formed.offset
  have near := isKept_near_hours stamp formed date hour
  have whole := stamp.hourStart_eq
  rw [Instant.hour] at near
  rw [readRelaxed?_utcText _ (near _ (by omega) (by omega)),
    readRelaxed?_utcText _ (near _ (by omega) (by omega)), Option.some.injEq, Option.some.injEq,
    ZonedTime.mk.injEq, ZonedTime.mk.injEq]
  omega

/-- A clock shows a full hour of a day as the date and the hour. The clock shows the one date and
time of day whose seconds these are. -/
theorem dateClockText_hours (stamp : WrittenStamp) (formed : stamp.WellFormed)
    (date : stamp.date.Valid) (hour : Text.ofDigits stamp.hour ≤ 23) :
    dateClockText (stamp.hours * Instant.hour) =
      String.ofList stamp.dateChars ++ " " ++ String.ofList stamp.hour ++ ":00" := by
  have kept := isKept_near_hours stamp formed date hour (stamp.hours * Instant.hour)
    (by omega) (by omega)
  have shown : LocalTime.ofInstant (stamp.hours * Instant.hour) =
      ⟨stamp.date, Text.ofDigits stamp.hour, 0, 0, 0⟩ := by
    refine LocalTime.ofInstant_of_seconds ⟨stamp.date, Text.ofDigits stamp.hour, 0, 0, 0⟩
      ⟨date, hour, Nat.zero_le _, Nat.zero_le _⟩ (Nat.zero_le _) _ ?_
    simp only [LocalTime.seconds, WrittenStamp.hours, Instant.hour]
    omega
  have minutes : Text.padded 2 0 = ['0', '0'] := by decide
  rw [dateClockText, textOfInstant, if_pos kept, shown, dateClockForm, text_date stamp formed,
    clockForm, formed.hour.padded (by decide), minutes]
  simp [← String.toList_inj]

/-- A clock shows every full hour as the hour of the day, followed by no minutes. -/
theorem clockText_hours (hours : Int) (kept : IsKept (hours * Instant.hour)) :
    clockText (hours * Instant.hour) =
      String.ofList (Text.padded 2 (hours % 24).toNat) ++ ":00" := by
  obtain ⟨hour, minute⟩ := LocalTime.hour_ofInstant hours
  have minutes : Text.padded 2 0 = ['0', '0'] := by decide
  rw [clockText, textOfInstant, if_pos kept, clockForm, hour, minute, minutes]
  simp

end Calendar

namespace Report

/-- The line about the window of a local hour, with the hours counted on the local clock. Moved to
the local clock, the window begins at the full hour and ends twelve hours later. -/
theorem windowLine_ofHour (now : ZonedTime) (kept : now.Kept) (number : Int)
    (inHour : now.InHour number) :
    windowLine (Window.ofHour now) = .ok ("window " ++ dateClockText (number * Instant.hour) ++
      " .. " ++ clockText ((number + 12) * Instant.hour) ++
      (" (" ++ offsetText now.offsetSeconds ++ ")") ++ "\n") := by
  have offset : (Window.ofHour now).utcOffsetMs = now.offsetSeconds * 1000 := rfl
  have start : (Window.ofHour now).startMs + (Window.ofHour now).utcOffsetMs =
      number * Instant.hour := by
    rw [Window.startMs_ofHour now number inHour, offset, Int.sub_add_cancel]
  have finish : (Window.ofHour now).endMs + (Window.ofHour now).utcOffsetMs =
      (number + 12) * Instant.hour := by
    have proper := Window.proper_ofHour now kept
    rw [proper.span, Int.add_right_comm, start, Instant.turn, Int.add_mul]
  have shown : windowOffset? (Window.ofHour now) = some now.offsetSeconds := by
    have east := kept.east
    have west := kept.west
    simp only [windowOffset?, offset]
    rw [Int.mul_tdiv_cancel _ (by decide), if_pos (by omega)]
  rw [windowLine_eq_ok _ (Window.proper_ofHour now kept), start, finish, shown, Option.elim_some]

end Report

namespace Command

/-- The window command prints the window of a time that is kept. Its window is one of those that can
be computed. -/
theorem window_of_timestamp (text : String) (time : ZonedTime) (clock : LocalClock)
    (read : readStrict? text.toList = some time) :
    window (some text) clock =
      CommandError.ofOverflow (Report.windowText (Window.ofHour time)) := by
  have found := Window.atTime_eq_ok time (kept_of_readStrict _ _ read)
  have resolved : resolveTime clock (some text) = .ok time := by
    rw [resolveTime, WrittenTime.read, read]
    rfl
  simp only [window, resolved, found, CommandError.ofOverflow, bind, Except.bind]

/-- The window command prints the hour that was written. Every text that is accepted as a timestamp
is one that is written in fields. If its second is not one numbered sixty, then the first line shows
its date, its hour with no minutes, the hour on the other side of the dial, and its offset, and the
second line shows in absolute time the instant at which this hour begins and the one twelve hours
later. That instant is the one that is read from the full hour, and both are read back from what is
printed. -/
theorem window_prints_written_hour (text : String) (time : ZonedTime)
    (accepted : readStrict? text.toList = some time) :
    (∃ stamp : WrittenStamp, stamp.WellFormed ∧ text.toList = stamp.chars) ∧
    ∀ stamp : WrittenStamp, stamp.WellFormed → text.toList = stamp.chars →
      Text.ofDigits stamp.second ≤ 59 →
      ∃ start, readStrict? stamp.fullHour.chars = some ⟨start, stamp.offset.seconds⟩ ∧
        readRelaxed? (utcText start).toList = some ⟨start, 0⟩ ∧
        readRelaxed? (utcText (start + 43200000)).toList = some ⟨start + 43200000, 0⟩ ∧
        ∀ clock, window (some text) clock = .ok
          ("window " ++ String.ofList stamp.dateChars ++ " " ++ String.ofList stamp.hour ++
            ":00 .. " ++ String.ofList (Text.padded 2 ((Text.ofDigits stamp.hour + 12) % 24)) ++
            ":00 (" ++ String.ofList stamp.offset.shown ++ ")\n" ++
            "utc " ++ utcText start ++ " .. " ++ utcText (start + 43200000) ++ "\n") := by
  refine ⟨exists_of_readStrict? _ _ accepted, ?_⟩
  intro stamp formed written ordinary
  have kept := kept_of_readStrict _ _ accepted
  have read := accepted
  rw [written] at read
  obtain ⟨date, hour, offset, inHour⟩ := localMs_of_chars stamp formed time read ordinary
  have start : (Window.ofHour time).startMs = stamp.hourStart := by
    rw [Window.startMs_ofHour time stamp.hours inHour, offset, WrittenStamp.hourStart]
  have finish : (Window.ofHour time).endMs = stamp.hourStart + 43200000 := by
    rw [← start]
    rfl
  obtain ⟨readStart, readFinish⟩ := readRelaxed?_hourStart stamp formed date hour
  refine ⟨stamp.hourStart, readStrict?_fullHour stamp formed date hour, readStart, readFinish,
    fun clock => ?_⟩
  have opposite : ((stamp.hours + 12) % 24).toNat = (Text.ofDigits stamp.hour + 12) % 24 := by
    rw [WrittenStamp.hours]
    omega
  have endKept := isKept_near_hours stamp formed date hour ((stamp.hours + 12) * Instant.hour)
    (by rw [Instant.hour]; omega) (by rw [Instant.hour]; omega)
  have line := Report.windowLine_ofHour time kept stamp.hours inHour
  rw [dateClockText_hours stamp formed date hour, clockText_hours _ endKept, opposite, offset,
    offsetText_seconds _ formed.offset] at line
  rw [window_of_timestamp text time clock accepted, Report.windowText, line, start, finish]
  have afterStart : ":00 .. " = ":00" ++ " .. " := rfl
  have afterFinish : ":00 (" = ":00" ++ " (" := rfl
  have afterOffset : ")\n" = ")" ++ "\n" := rfl
  refine congrArg Except.ok ?_
  simp only [afterStart, afterFinish, afterOffset, String.append_assoc]

/-- The last thousandth of the first hour of the year zero, on a clock that is a minute less than a
day ahead. In absolute time the window begins in the year before. -/
theorem window_prints_written_hour_of_year_zero :
    readStrict? "0000-01-01t00:59:59.999999999999+23:59".toList =
      some ⟨-62167301940001, 86340⟩ ∧
    Text.ofDigits "59".toList ≤ 59 ∧
    ∀ clock, window (some "0000-01-01t00:59:59.999999999999+23:59") clock = .ok
      ("window 0000-01-01 00:00 .. 12:00 (+23:59)\n" ++
        "utc -0001-12-31T00:01:00Z .. -0001-12-31T12:01:00Z\n") := by
  have accepted : readStrict? "0000-01-01t00:59:59.999999999999+23:59".toList =
      some ⟨-62167301940001, 86340⟩ := by decide +kernel
  let stamp : WrittenStamp :=
    ⟨"0000".toList, "01".toList, "01".toList, 't', "00".toList, "59".toList, "59".toList,
      some "999999999999".toList, .signed '+' "23".toList "59".toList⟩
  have formed : stamp.WellFormed := by
    refine ⟨⟨rfl, by decide⟩, ⟨rfl, by decide⟩, ⟨rfl, by decide⟩, .inr (.inl rfl), ⟨rfl, by decide⟩,
      ⟨rfl, by decide⟩, ⟨rfl, by decide⟩, ?_, .inl rfl, ⟨rfl, by decide⟩, ⟨rfl, by decide⟩,
      by decide, by decide⟩
    rintro digits ⟨rfl⟩
    exact ⟨by decide, List.all_eq_true.mp (by decide +kernel)⟩
  have ordinary : Text.ofDigits stamp.second ≤ 59 := by decide
  obtain ⟨-, each⟩ := window_prints_written_hour _ _ accepted
  obtain ⟨start, full, -, -, printed⟩ := each stamp formed (by decide +kernel) ordinary
  have known : readStrict? stamp.fullHour.chars = some ⟨-62167305540000, 86340⟩ := by
    decide +kernel
  rw [full, Option.some.injEq, ZonedTime.mk.injEq] at known
  obtain ⟨rfl, -⟩ := known
  exact ⟨accepted, ordinary, fun clock => (printed clock).trans (by decide +kernel)⟩

end Command

end CalendarDial
