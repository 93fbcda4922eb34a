import CalendarDial.Calendar.Date

/-!
# Every day has one date

Days are counted in years that begin in March, and these in eras of four hundred. A year of an era
is given by its century, its group of four years, and its place in the group; what the divisions
that find a year from a day make of these three is shown in exact arithmetic, with the last day of a
leap year and the last day of an era as the two exceptions that they have to get right. Months
follow each other by a fixed table of lengths, which another division finds. So dates and days are
in one-to-one correspondence, for all years.
-/

namespace CalendarDial.Calendar

/-- The days from the start of an era to the start of one of its years. -/
def yearStart (yearOfEra : Int) : Int := yearOfEra * 365 + yearOfEra / 4 - yearOfEra / 100

/-- The year of an era that a day of the era falls in. -/
def yearOfDay (dayOfEra : Int) : Int :=
  (dayOfEra - dayOfEra / 1460 + dayOfEra / 36524 - dayOfEra / 146096) / 365

/-- The year of the era has such a day, counted from its first of March. Its leap day is the last
one, and falls in February of the year that has the next number. -/
structure IsDayOfYear (yearOfEra dayOfYear : Int) : Prop where
  first : 0 ≤ dayOfYear
  last : dayOfYear ≤ 364 ∨ dayOfYear = 365 ∧ IsLeap (yearOfEra + 1)

/-- What the division by the days of a century finds, with the last day of an era put right. The
last day is one too many for the first division, and the second takes it back. -/
theorem centuries_of_day (century rest : Int) (early : 0 ≤ century) (late : century ≤ 3)
    (first : 0 ≤ rest) (last : rest < 36524 ∨ rest = 36524 ∧ century = 3) :
    (36524 * century + rest) / 36524 - (36524 * century + rest) / 146096 = century := by
  rcases last with ordinary | ⟨rfl, rfl⟩
  · have whole : (36524 * century + rest) / 36524 = century := by omega
    have inside : (36524 * century + rest) / 146096 = 0 := by omega
    rw [whole, inside, Int.sub_zero]
  · decide

/-- What the division by the days of four years finds. A year may be counted too early, but only
from a day on at which another is about to begin. -/
theorem fours_of_day (years rest : Int) (early : 0 ≤ rest) (late : rest < 2920) :
    (1460 * years + rest) / 1460 = years + if 1460 ≤ rest then 1 else 0 := by
  split <;> omega

/-- A day of an era falls in the year that it is counted in. -/
theorem yearOfDay_yearStart_add (yearOfEra dayOfYear : Int) (early : 0 ≤ yearOfEra)
    (late : yearOfEra < 400) (day : IsDayOfYear yearOfEra dayOfYear) :
    yearOfDay (yearStart yearOfEra + dayOfYear) = yearOfEra := by
  obtain ⟨first, last⟩ := day
  obtain ⟨century, four, year, inEra, inCentury, inFour, rfl⟩ : ∃ century four year : Int,
      (0 ≤ century ∧ century ≤ 3) ∧ (0 ≤ four ∧ four ≤ 24) ∧ (0 ≤ year ∧ year ≤ 3) ∧
      yearOfEra = 100 * century + 4 * four + year :=
    ⟨yearOfEra / 100, yearOfEra % 100 / 4, yearOfEra % 4, by omega, by omega, by omega, by omega⟩
  have start : yearStart (100 * century + 4 * four + year) =
      36524 * century + 1461 * four + 365 * year := by
    simp only [yearStart]
    omega
  have leap : dayOfYear = 365 → year = 3 ∧ (four ≤ 23 ∨ century = 3) := by
    simp only [IsLeap] at last
    omega
  have centuries := centuries_of_day century (1461 * four + 365 * year + dayOfYear) inEra.1 inEra.2
    (by omega) (by omega)
  have fours := fours_of_day (25 * century + four)
    (24 * century + four + 365 * year + dayOfYear) (by omega) (by omega)
  have whole : yearStart (100 * century + 4 * four + year) + dayOfYear =
      36524 * century + (1461 * four + 365 * year + dayOfYear) := by omega
  have parted : 36524 * century + (1461 * four + 365 * year + dayOfYear) =
      1460 * (25 * century + four) + (24 * century + four + 365 * year + dayOfYear) := by omega
  rw [whole, yearOfDay]
  rw [← parted] at fours
  split at fours <;> omega

/-- Every day of an era is counted in some year of it. Its century, its group of four years and its
year in the group are found by division, each with the last one taken where the division would go
beyond it. -/
theorem exists_isDayOfYear (dayOfEra : Int) (first : 0 ≤ dayOfEra) (last : dayOfEra < 146097) :
    ∃ yearOfEra dayOfYear, 0 ≤ yearOfEra ∧ yearOfEra < 400 ∧ IsDayOfYear yearOfEra dayOfYear ∧
      dayOfEra = yearStart yearOfEra + dayOfYear := by
  obtain ⟨century, rest, inEra, inCentury, rfl⟩ : ∃ century rest : Int,
      (0 ≤ century ∧ century ≤ 3) ∧ (0 ≤ rest ∧ (rest < 36524 ∨ rest = 36524 ∧ century = 3)) ∧
      dayOfEra = 36524 * century + rest :=
    ⟨min 3 (dayOfEra / 36524), dayOfEra - 36524 * min 3 (dayOfEra / 36524), by omega, by omega,
      by omega⟩
  obtain ⟨four, days, inFours, inFour, rfl⟩ : ∃ four days : Int,
      (0 ≤ four ∧ four ≤ 24) ∧ (0 ≤ days ∧ days ≤ 1460) ∧ rest = 1461 * four + days :=
    ⟨rest / 1461, rest % 1461, by omega, by omega, by omega⟩
  obtain ⟨year, dayOfYear, inYears, inYear, rfl⟩ : ∃ year dayOfYear : Int,
      (0 ≤ year ∧ year ≤ 3) ∧ (0 ≤ dayOfYear ∧ (dayOfYear < 365 ∨ dayOfYear = 365 ∧ year = 3)) ∧
      days = 365 * year + dayOfYear :=
    ⟨min 3 (days / 365), days - 365 * min 3 (days / 365), by omega, by omega, by omega⟩
  refine ⟨100 * century + 4 * four + year, dayOfYear, by omega, by omega, ⟨inYear.1, ?_⟩, ?_⟩
  · simp only [IsLeap]
    omega
  · simp only [yearStart]
    omega

/-- The years of an era fill it. The last year of an era is a leap year of 366 days, and the others
end where the next one starts. -/
theorem yearStart_add_within (yearOfEra dayOfYear : Int) (early : 0 ≤ yearOfEra)
    (late : yearOfEra < 400) (day : IsDayOfYear yearOfEra dayOfYear) :
    0 ≤ yearStart yearOfEra + dayOfYear ∧ yearStart yearOfEra + dayOfYear < 146097 := by
  obtain ⟨first, last⟩ := day
  simp only [yearStart, IsLeap] at last ⊢
  omega

/-- The days from the first of March to the start of a month, the months counted from March. -/
def monthStart (month : Int) : Int := (153 * month + 2) / 5

/-- The usual number of a month that is counted from March. -/
def monthNumber (month : Int) : Int := if month < 10 then month + 3 else month - 9

/-- The month is found that has started and whose next one has not. -/
theorem month_of_day (month dayOfYear : Int) (started : monthStart month ≤ dayOfYear)
    (lasting : dayOfYear < monthStart (month + 1)) : (5 * dayOfYear + 2) / 153 = month := by
  simp only [monthStart] at started lasting
  omega

namespace Date

/-- The year in which the date falls if years begin in March. -/
def marchYear (date : Date) : Int := if date.month ≤ 2 then date.year - 1 else date.year

/-- The month counted from March. -/
def monthFromMarch (date : Date) : Int := ((date.month : Int) + 9) % 12

/-- The days from the first of March to the date. -/
def dayOfMarchYear (date : Date) : Int := monthStart date.monthFromMarch + date.day - 1

/-- The date that lies so many days after the first of March of a year. -/
def ofMarchYear (year dayOfYear : Int) : Date :=
  let monthFromMarch := (5 * dayOfYear + 2) / 153
  let day := dayOfYear - monthStart monthFromMarch + 1
  let month := monthNumber monthFromMarch
  ⟨if month ≤ 2 then year + 1 else year, month.toNat, day.toNat⟩

/-- The days of a date are those of its era, of its year in the era, and of the date in its year. -/
theorem toDays_eq (date : Date) :
    date.toDays = date.marchYear / 400 * eraDays +
      (yearStart (date.marchYear % 400) + date.dayOfMarchYear) - 719468 :=
  rfl

/-- Counting back, the era is found, the year in it, and the date in the year. The three divisions
undo what the days were made of, one after the other. -/
theorem ofDays_eq (era yearOfEra dayOfYear : Int) (early : 0 ≤ yearOfEra) (late : yearOfEra < 400)
    (day : IsDayOfYear yearOfEra dayOfYear) :
    ofDays (era * eraDays + (yearStart yearOfEra + dayOfYear) - 719468) =
      ofMarchYear (yearOfEra + era * 400) dayOfYear := by
  obtain ⟨first, last⟩ := yearStart_add_within yearOfEra dayOfYear early late day
  have whole : (era * eraDays + (yearStart yearOfEra + dayOfYear) - 719468 + 719468) / eraDays =
      era := by
    simp only [eraDays]
    omega
  have rest : (era * eraDays + (yearStart yearOfEra + dayOfYear) - 719468 + 719468) % eraDays =
      yearStart yearOfEra + dayOfYear := by
    simp only [eraDays]
    omega
  have year := yearOfDay_yearStart_add yearOfEra dayOfYear early late day
  rw [yearOfDay] at year
  have left : yearStart yearOfEra + dayOfYear -
      (365 * yearOfEra + yearOfEra / 4 - yearOfEra / 100) = dayOfYear := by
    rw [yearStart]
    omega
  simp only [ofDays, whole, rest, year, left]
  rfl

/-- February, the last month, ends with the year. It begins 336 days after the first of March, and
in a leap year its twenty-ninth is the extra day. -/
theorem isDayOfYear_february_iff (year : Int) (day : Nat) :
    IsDayOfYear (year - 1) (336 + day) ↔ day ≤ daysInMonth year 2 := by
  have length : daysInMonth year 2 = if IsLeap year then 29 else 28 := rfl
  rw [length]
  constructor
  · rintro ⟨-, last⟩
    rw [Int.sub_add_cancel] at last
    by_cases long : IsLeap year
    · rw [if_pos long]
      omega
    · rw [if_neg long]
      have short := last.resolve_right fun leapDay => long leapDay.2
      omega
  · intro last
    refine ⟨by omega, ?_⟩
    rw [Int.sub_add_cancel]
    by_cases long : IsLeap year
    · rw [if_pos long] at last
      by_cases leapDay : day = 29
      · exact .inr ⟨by omega, long⟩
      · exact .inl (by omega)
    · rw [if_neg long] at last
      exact .inl (by omega)

/-- There is a date if its month has started and not ended: the next month has not started, or in
February the year has not ended. For the other eleven months the table of lengths is compared with
the table of starts. -/
theorem valid_iff (date : Date) :
    date.Valid ↔ 1 ≤ date.month ∧ date.month ≤ 12 ∧ 1 ≤ date.day ∧
      (date.month ≠ 2 ∧ date.dayOfMarchYear < monthStart (date.monthFromMarch + 1) ∨
        date.month = 2 ∧ IsDayOfYear date.marchYear date.dayOfMarchYear) := by
  obtain ⟨year, month, day⟩ := date
  refine and_congr_right fun first => and_congr_right fun last => and_congr_right fun begun => ?_
  simp only at first last begun ⊢
  by_cases february : month = 2
  · subst february
    have counted : (Date.mk year 2 day).dayOfMarchYear = 336 + day := by
      simp only [dayOfMarchYear, monthFromMarch, monthStart]
      omega
    have inYear : (Date.mk year 2 day).marchYear = year - 1 := rfl
    rw [counted, inYear, isDayOfYear_february_iff]
    simp
  · have months : month = 1 ∨ month = 3 ∨ month = 4 ∨ month = 5 ∨ month = 6 ∨
        month = 7 ∨ month = 8 ∨ month = 9 ∨ month = 10 ∨ month = 11 ∨ month = 12 := by omega
    rcases months with rfl | rfl | rfl | rfl | rfl | rfl | rfl | rfl | rfl | rfl | rfl <;>
      simp [daysInMonth, dayOfMarchYear, monthFromMarch, monthStart] <;> omega

/-- A date that there is has a day in its year. Only in February can it be the last one of a leap
year. -/
theorem Valid.isDayOfYear {date : Date} (valid : date.Valid) :
    IsDayOfYear date.marchYear date.dayOfMarchYear := by
  obtain ⟨first, last, begun, ⟨other, lasting⟩ | ⟨-, inYear⟩⟩ := date.valid_iff.mp valid
  · refine ⟨?_, .inl ?_⟩ <;> simp only [dayOfMarchYear, monthFromMarch, monthStart] at lasting ⊢ <;>
      omega
  · exact inYear

/-- The usual number of the month of a date is found again. -/
theorem monthNumber_monthFromMarch (date : Date) (first : 1 ≤ date.month)
    (last : date.month ≤ 12) : monthNumber date.monthFromMarch = date.month := by
  by_cases early : date.monthFromMarch < 10
  · rw [monthNumber, if_pos early]
    rw [monthFromMarch] at early ⊢
    omega
  · rw [monthNumber, if_neg early]
    rw [monthFromMarch] at early ⊢
    omega

/-- A date that there is is found from its year and its day in the year: its month is the one that
has started and not ended, and its day is what is left. -/
theorem ofMarchYear_of_valid (date : Date) (valid : date.Valid) :
    ofMarchYear date.marchYear date.dayOfMarchYear = date := by
  have started : monthStart date.monthFromMarch ≤ date.dayOfMarchYear := by
    obtain ⟨-, -, begun, -⟩ := valid
    rw [dayOfMarchYear]
    omega
  have lasting : date.dayOfMarchYear < monthStart (date.monthFromMarch + 1) := by
    obtain ⟨-, -, -, ⟨-, lasting⟩ | ⟨february, inYear⟩⟩ := date.valid_iff.mp valid
    · exact lasting
    · have last := inYear.last
      simp only [monthFromMarch, february, monthStart]
      omega
  have month := month_of_day _ _ started lasting
  obtain ⟨first, last, -, -⟩ := valid
  have number := date.monthNumber_monthFromMarch first last
  obtain ⟨year, _, day⟩ := date
  simp only [ofMarchYear, month, number, Date.mk.injEq]
  refine ⟨?_, Int.toNat_natCast _, ?_⟩
  · simp only [marchYear]
    split <;> omega
  · simp only [dayOfMarchYear]
    omega

/-- A day of a year is a date, and it is that day of that year. The month that the division finds
has started and not ended, so counting forward again leads to the same day. -/
theorem ofMarchYear_spec (year dayOfYear : Int) (day : IsDayOfYear year dayOfYear) :
    (ofMarchYear year dayOfYear).Valid ∧ (ofMarchYear year dayOfYear).marchYear = year ∧
      (ofMarchYear year dayOfYear).dayOfMarchYear = dayOfYear := by
  obtain ⟨first, last⟩ := id day
  obtain ⟨month, found⟩ : ∃ month, (5 * dayOfYear + 2) / 153 = month := ⟨_, rfl⟩
  have started : monthStart month ≤ dayOfYear := by
    rw [monthStart]
    omega
  have lasting : dayOfYear < monthStart (month + 1) := by
    rw [monthStart]
    omega
  have numbered : 1 ≤ monthNumber month ∧ monthNumber month ≤ 12 := by
    rw [monthNumber]
    split <;> omega
  have number : (ofMarchYear year dayOfYear).month = monthNumber month := by
    simp only [ofMarchYear, found]
    omega
  have named : (ofMarchYear year dayOfYear).day = dayOfYear - monthStart month + 1 := by
    simp only [ofMarchYear, found]
    omega
  have fromMarch : (ofMarchYear year dayOfYear).monthFromMarch = month := by
    rw [monthFromMarch, number, monthNumber]
    split <;> omega
  have inYear : (ofMarchYear year dayOfYear).marchYear = year := by
    have written : (ofMarchYear year dayOfYear).year =
        if monthNumber month ≤ 2 then year + 1 else year := by
      simp only [ofMarchYear, found]
    rw [marchYear, written]
    by_cases early : monthNumber month ≤ 2
    · rw [if_pos (by omega), if_pos early, Int.add_sub_cancel]
    · rw [if_neg (by omega), if_neg early]
  have counted : (ofMarchYear year dayOfYear).dayOfMarchYear = dayOfYear := by
    rw [dayOfMarchYear, fromMarch, named]
    omega
  refine ⟨?_, inYear, counted⟩
  rw [valid_iff, inYear, counted, fromMarch]
  refine ⟨by omega, by omega, by omega, ?_⟩
  by_cases february : (ofMarchYear year dayOfYear).month = 2
  · exact .inr ⟨february, day⟩
  · exact .inl ⟨february, lasting⟩

/-- Leap years come back with every era, so a year has the days that its place in the era gives it.
-/
theorem isDayOfYear_era_iff (era yearOfEra dayOfYear : Int) :
    IsDayOfYear (yearOfEra + era * 400) dayOfYear ↔ IsDayOfYear yearOfEra dayOfYear := by
  have leap : IsLeap (yearOfEra + era * 400 + 1) ↔ IsLeap (yearOfEra + 1) := by
    simp only [IsLeap]
    omega
  constructor
  · rintro ⟨first, last⟩
    exact ⟨first, last.imp_right (And.imp_right leap.mp)⟩
  · rintro ⟨first, last⟩
    exact ⟨first, last.imp_right (And.imp_right leap.mpr)⟩

/-- A date that there is is found from its days. Splitting its days into era, year and day, and
putting these together, cancel. -/
theorem ofDays_toDays (date : Date) (valid : date.Valid) : ofDays date.toDays = date := by
  have split : date.marchYear % 400 + date.marchYear / 400 * 400 = date.marchYear := by omega
  have day := valid.isDayOfYear
  rw [← split, isDayOfYear_era_iff] at day
  rw [toDays_eq, ofDays_eq _ _ _ (by omega) (by omega) day, split, ofMarchYear_of_valid date valid]

/-- Every day has a date, and it is that many days away. The day lies in an era, and in the era in a
year, and counting the date forward again adds up to it. -/
theorem toDays_ofDays (days : Int) : (ofDays days).Valid ∧ (ofDays days).toDays = days := by
  obtain ⟨yearOfEra, dayOfYear, early, late, day, whole⟩ :=
    exists_isDayOfYear ((days + 719468) % eraDays) (by simp only [eraDays]; omega)
      (by simp only [eraDays]; omega)
  have era : days =
      (days + 719468) / eraDays * eraDays + (yearStart yearOfEra + dayOfYear) - 719468 := by
    rw [← whole]
    simp only [eraDays]
    omega
  generalize (days + 719468) / eraDays = number at era
  obtain ⟨valid, inYear, counted⟩ := ofMarchYear_spec (yearOfEra + number * 400) dayOfYear
    ((isDayOfYear_era_iff _ _ _).mpr day)
  have found : ofDays days = ofMarchYear (yearOfEra + number * 400) dayOfYear := by
    rw [era, ofDays_eq number yearOfEra dayOfYear early late day]
  have before : (yearOfEra + number * 400) / 400 = number := by omega
  have inEra : (yearOfEra + number * 400) % 400 = yearOfEra := by omega
  rw [found]
  refine ⟨valid, ?_⟩
  rw [toDays_eq, inYear, counted, before, inEra, ← era]

end Date

end CalendarDial.Calendar
