import CalendarDial.Calendar.Forms
import CalendarDial.Proofs.Text.Digits
import CalendarDial.Proofs.Window

/-!
# The range of timestamps

A timestamp in the form of RFC 3339 has a year of four digits and an offset of less than a day. The
years that are kept reach much further, so every such timestamp is a time for which there is a
window.
-/

namespace CalendarDial.Calendar

/-- A field of so many digits is below that power of ten, as any such number is. -/
theorem Scan.fixed_lt (width value : Nat) (cs rest : List Char)
    (read : Scan.fixed width cs = some (value, rest)) : value < 10 ^ width := by
  simp only [Scan.fixed, Option.ite_none_right_eq_some, Option.some.injEq, Prod.mk.injEq] at read
  obtain ⟨⟨length, digits⟩, rfl, -⟩ := read
  have bound := Text.ofDigits_lt (cs.take width) digits
  rwa [length] at bound

/-- The fraction of a second is less than a second: at most nine digits count, and they are scaled
up to nine. -/
theorem Scan.fraction_lt (nanosecond : Nat) (cs rest : List Char)
    (read : Scan.fraction cs = some (nanosecond, rest)) : nanosecond < 1000000000 := by
  rw [Scan.fraction.eq_def] at read
  split at read
  · next cs =>
    simp only [Option.ite_none_left_eq_some, Option.some.injEq, Prod.mk.injEq] at read
    obtain ⟨-, rfl, -⟩ := read
    have kept : ((cs.takeWhile Char.isDigit).take 9).all Char.isDigit = true :=
      List.all_eq_true.mpr fun c present =>
        List.all_eq_true.mp List.all_takeWhile c (List.mem_of_mem_take present)
    have short : ((cs.takeWhile Char.isDigit).take 9).length ≤ 9 := List.length_take_le _ _
    generalize (cs.takeWhile Char.isDigit).take 9 = digits at kept short
    calc Text.ofDigits digits * 10 ^ (9 - digits.length)
        < 10 ^ digits.length * 10 ^ (9 - digits.length) :=
          Nat.mul_lt_mul_of_pos_right (Text.ofDigits_lt digits kept) (Nat.pow_pos (by decide))
      _ = 10 ^ 9 := by rw [← Nat.pow_add, Nat.add_sub_cancel' short]
  · cases read
    decide

/-- An offset is less than a day, for it has at most 23 hours and 59 minutes. -/
theorem Scan.offset_lt (separator : List Char → Option (List Char)) (seconds : Int)
    (cs rest : List Char) (read : Scan.offset separator cs = some (seconds, rest)) :
    -86400 < seconds ∧ seconds < 86400 := by
  rw [Scan.offset.eq_def] at read
  split at read
  · cases read
    decide
  · cases read
    decide
  · simp only [Option.bind_eq_bind, Option.bind_eq_some_iff, Prod.exists,
      Option.ite_none_right_eq_some, Option.some.injEq, Prod.mk.injEq] at read
    obtain ⟨negative, _, -, hours, _, -, _, -, minutes, _, -, ⟨_, _⟩, rfl, -⟩ := read
    split <;> omega

/-- The days of a date in a year of four digits. The bounds are generous: they only have to lie well
inside the range that is kept. -/
theorem Date.toDays_le (date : Date) (valid : date.Valid) (early : 0 ≤ date.year)
    (late : date.year ≤ 9999) : -1000000 ≤ date.toDays ∧ date.toDays ≤ 3000000 := by
  obtain ⟨firstMonth, lastMonth, firstDay, lastDay⟩ := valid
  have short : daysInMonth date.year date.month ≤ 31 := by
    rw [daysInMonth]
    split <;> split <;> omega
  simp only [toDays, eraDays]
  split <;> omega

/-- The instant of a time in a year of four digits, on a clock less than a day away from absolute
time, is one that is kept. Neither the offset nor the time of day moves it by more than a few
days. -/
theorem LocalTime.kept_of_at? (time : LocalTime) (offsetSeconds : Int) (zoned : ZonedTime)
    (early : 0 ≤ time.date.year) (late : time.date.year ≤ 9999)
    (fraction : time.nanosecond < 1000000000)
    (offset : -86400 < offsetSeconds ∧ offsetSeconds < 86400)
    (read : time.at? offsetSeconds = some zoned) : zoned.Kept := by
  simp only [at?, Option.ite_none_right_eq_some, Option.some.injEq] at read
  obtain ⟨⟨valid, -⟩, rfl⟩ := read
  obtain ⟨date, hour, minute, second⟩ := valid
  have days := time.date.toDays_le date early late
  refine ⟨?_, offset.1, offset.2⟩
  simp only [IsKept, firstSecond, lastSecond, seconds, millis]
  split <;> omega

/-- Every timestamp in the form of RFC 3339 is a time that is kept, because its year has four digits
and its offset is less than a day. -/
theorem kept_of_readStrict (cs : List Char) (time : ZonedTime)
    (read : readStrict? cs = some time) : time.Kept := by
  simp only [readStrict?, Option.bind_eq_bind, Option.bind_eq_some_iff, Prod.exists,
    Option.ite_none_right_eq_some] at read
  obtain ⟨year, _, years, _, -, month, _, -, _, -, day, _, -, _, -, hour, _, -, _, -, minute, _, -,
    _, -, second, _, -, nanosecond, _, fraction, offsetSeconds, _, offset, -, made⟩ := read
  have digits := Scan.fixed_lt 4 year _ _ years
  exact LocalTime.kept_of_at? _ offsetSeconds time (Int.natCast_nonneg year) (by dsimp only; omega)
    (Scan.fraction_lt nanosecond _ _ fraction) (Scan.offset_lt _ offsetSeconds _ _ offset) made

end CalendarDial.Calendar
