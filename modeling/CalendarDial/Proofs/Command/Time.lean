import CalendarDial.Proofs.Calendar.Relative

/-!
# Times that are no timestamps

What is no timestamp is a time only if it is a distance from now whose number can be used. The texts
that are not fall into three classes, each with a message of its own: distances whose number cannot
be read, distances whose number is too large, and everything else.
-/

namespace CalendarDial

open Calendar

section NoTimestamp

variable (clock : LocalClock) (text : String) (other : readStrict? text.toList = none)

include other

/-- A distance that can be used is counted back from now, and the clock shows the instant that it
leads to as it did then. -/
theorem resolveTime_of_readRelative_eq_ok (minutes : Nat)
    (read : readRelative text.toList = .ok minutes) :
    resolveTime clock (some text) = .ok (clock.timeAt (clock.nowMs - minutes * 60000)) := by
  simp only [resolveTime, WrittenTime.read, other, read, Except.map, WrittenTime.resolve]

/-- A time that is found is a distance, for the text is no timestamp and every failure to read a
distance is a failure to find the time. -/
theorem exists_minutes_of_resolveTime_eq_ok (time : ZonedTime)
    (resolved : resolveTime clock (some text) = .ok time) :
    ∃ minutes, readRelative text.toList = .ok minutes := by
  cases read : readRelative text.toList with
  | ok minutes => exact ⟨minutes, rfl⟩
  | error cause =>
    cases cause <;> simp [resolveTime, WrittenTime.read, other, read, Except.map] at resolved

/-- A distance whose number cannot be read fails with a message that says so. -/
theorem exists_failure_of_unreadable
    (read : readRelative text.toList = .error .unreadableNumber) :
    ∃ failure, resolveTime clock (some text) = .error failure ∧
      failure.message = "failed to parse number in relative time" := by
  refine ⟨.unreadableNumber, ?_, rfl⟩
  simp only [resolveTime, WrittenTime.read, other, read, Except.map]

/-- A distance whose number is too large fails with a message that gives number and unit. -/
theorem exists_failure_of_tooLarge (count : Nat) (unit : TimeUnit)
    (read : readRelative text.toList = .error (.tooLarge count unit)) :
    ∃ failure, resolveTime clock (some text) = .error failure ∧
      failure.message =
        "Relative time value too large: " ++ toString count ++ " " ++ unit.name := by
  refine ⟨.distanceTooLarge count unit, ?_, rfl⟩
  simp only [resolveTime, WrittenTime.read, other, read, Except.map]

/-- A text that is no distance fails with a message that repeats it. -/
theorem exists_failure_of_notRelative (read : readRelative text.toList = .error .notRelative) :
    ∃ failure, resolveTime clock (some text) = .error failure ∧
      failure.message =
        "Invalid datetime: " ++ text ++ ". Use ISO 8601 (e.g., 2026-01-15T10:30:00Z) " ++
          "or relative (e.g., '2 hours ago')" := by
  refine ⟨.invalidTime text, ?_, rfl⟩
  simp only [resolveTime, WrittenTime.read, other, read, Except.map]

end NoTimestamp

/-- A text that is no timestamp is a time exactly if it has the form of a distance from now, its
digits are those of ASCII, and it does not reach back further than the furthest distance. The time
is then that many minutes before now, with the offset of that instant, and 64 bits hold the number
of minutes; the limits that are set for the units say the same as the one in minutes. Every other
text fails, with one of three messages: that the number cannot be read, if there are other digits in
it or 64 bits do not hold it; that it is too large, with the number and the unit; and that this is
no time at all, if the text is no distance. -/
theorem resolveTime_of_no_timestamp (clock : LocalClock) (text : String)
    (other : readStrict? text.toList = none) :
    ((∃ time, resolveTime clock (some text) = .ok time) ↔
      ∃ digits unit, IsDistance text.toList digits unit ∧ digits.all Char.isDigit = true ∧
        Text.ofDigits digits * unit.minutes ≤ furthestMinutes) ∧
    (∀ digits unit, IsDistance text.toList digits unit →
      let count := Text.ofDigits digits
      (count ≤ furthestMinutes / unit.minutes ↔ count * unit.minutes ≤ furthestMinutes) ∧
      (digits.all Char.isDigit = true → count * unit.minutes ≤ furthestMinutes →
        Instant.Representable (count * unit.minutes) ∧
        ∃ time, resolveTime clock (some text) = .ok time ∧
          time.utcMs = clock.nowMs - count * unit.minutes * 60000 ∧
          time.offsetSeconds = clock.offsetAt time.utcMs) ∧
      ((digits.all Char.isDigit = true → ¬ Instant.Representable count) →
        ∃ failure, resolveTime clock (some text) = .error failure ∧
          failure.message = "failed to parse number in relative time") ∧
      (digits.all Char.isDigit = true → Instant.Representable count →
        furthestMinutes < count * unit.minutes →
        ∃ failure, resolveTime clock (some text) = .error failure ∧
          failure.message =
            "Relative time value too large: " ++ toString count ++ " " ++ unit.name)) ∧
    ((∀ digits unit, ¬ IsDistance text.toList digits unit) →
      ∃ failure, resolveTime clock (some text) = .error failure ∧
        failure.message =
          "Invalid datetime: " ++ text ++ ". Use ISO 8601 (e.g., 2026-01-15T10:30:00Z) " ++
            "or relative (e.g., '2 hours ago')") := by
  have held (count : Nat) : Instant.Representable count ↔ count ≤ greatestCount := by
    simp only [Instant.Representable, Instant.least, Instant.greatest, greatestCount]
    omega
  refine ⟨⟨?found, ?made⟩, fun digits unit distance => ⟨le_limit_iff _ unit, ?near, ?unreadable,
    ?far⟩, fun none => ?none⟩
  case found =>
    rintro ⟨time, resolved⟩
    obtain ⟨minutes, read⟩ := exists_minutes_of_resolveTime_eq_ok clock text other time resolved
    exact exists_distance_of_readRelative_eq_ok _ minutes read
  case made =>
    rintro ⟨digits, unit, distance, ascii, near⟩
    exact ⟨_, resolveTime_of_readRelative_eq_ok clock text other _
      (readRelative_eq_ok distance ascii near)⟩
  case near =>
    intro ascii near
    have within : Text.ofDigits digits * unit.minutes ≤ greatestCount :=
      Nat.le_trans near (by decide)
    refine ⟨?_, _, resolveTime_of_readRelative_eq_ok clock text other _
      (readRelative_eq_ok distance ascii near), ?_, rfl⟩
    · exact_mod_cast (held _).mpr within
    · rw [LocalClock.timeAt, Int.natCast_mul]
  case unreadable =>
    intro unreadable
    have beyond (ascii : digits.all Char.isDigit = true) : greatestCount < Text.ofDigits digits :=
      Nat.lt_of_not_le fun fits => unreadable ascii ((held _).mpr fits)
    exact exists_failure_of_unreadable clock text other (readRelative_unreadable distance beyond)
  case far =>
    intro ascii fits far
    exact exists_failure_of_tooLarge clock text other _ unit
      (readRelative_tooLarge distance ascii ((held _).mp fits) far)
  case none =>
    exact exists_failure_of_notRelative clock text other (readRelative_of_not_isDistance _ none)

/-- Seven weeks, with zeros in front of the number and white space that is no ASCII, and a number of
weeks that reaches too far back. The local zone has changed its offset in the meantime: the time has
the one of the earlier instant. -/
theorem resolveTime_of_no_timestamp_of_weeks :
    let clock : LocalClock := ⟨0, fun utcMs => if utcMs < -2500000000 then 3600 else 7200⟩
    let weeks := "007\u00a0weeks\u2003\tago"
    let tooMany := "99999999999 weeks ago"
    readStrict? weeks.toList = none ∧ readStrict? tooMany.toList = none ∧
    IsDistance weeks.toList "007".toList .week ∧
    IsDistance tooMany.toList "99999999999".toList .week ∧
    resolveTime clock (some weeks) = .ok ⟨-4233600000, 3600⟩ ∧
    ∃ failure, resolveTime clock (some tooMany) = .error failure ∧
      failure.message = "Relative time value too large: 99999999999 week" := by
  intro clock weeks tooMany
  have noTimestamp : readStrict? weeks.toList = none := by decide +kernel
  have alsoNone : readStrict? tooMany.toList = none := by decide +kernel
  have usable : IsDistance weeks.toList "007".toList .week :=
    (isDistance_iff _ _ _).mpr (by decide +kernel)
  have beyond : IsDistance tooMany.toList "99999999999".toList .week :=
    (isDistance_iff _ _ _).mpr (by decide +kernel)
  obtain ⟨-, distances, -⟩ := resolveTime_of_no_timestamp clock weeks noTimestamp
  obtain ⟨-, near, -⟩ := distances _ _ usable
  obtain ⟨-, distances, -⟩ := resolveTime_of_no_timestamp clock tooMany alsoNone
  obtain ⟨-, -, -, far⟩ := distances _ _ beyond
  obtain ⟨-, time, resolved, instant, offset⟩ := near (by decide +kernel) (by decide +kernel)
  have instantThen : time.utcMs = -4233600000 := instant.trans (by decide +kernel)
  have offsetThen : time.offsetSeconds = 3600 := by
    rw [offset, instantThen]
    rfl
  have found : time = ⟨-4233600000, 3600⟩ := by rw [← instantThen, ← offsetThen]
  obtain ⟨failure, failed, message⟩ :=
    far (by decide +kernel) (by decide +kernel) (by decide +kernel)
  exact ⟨noTimestamp, alsoNone, usable, beyond, found ▸ resolved, failure, failed,
    message.trans (by decide +kernel)⟩

end CalendarDial
