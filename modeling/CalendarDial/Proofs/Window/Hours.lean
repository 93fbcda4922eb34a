import CalendarDial.Proofs.Window

/-!
# One window for every local hour

The hours of a local clock divide its time without gaps, and each of them has one window: the twelve
hours from its top. The window is found by rounding local time down to full hours, which is rounding
to the floor also before 1970 and for clocks that are not whole hours away from absolute time. So
two windows of one clock are equal exactly when they were made in the same hour, and a window
changes just when the hour does.
-/

namespace CalendarDial

namespace ZonedTime

/-- What the local clock shows, in milliseconds from its start of 1970. -/
def localMs (now : ZonedTime) : Int := now.utcMs + now.offsetSeconds * 1000

/-- The local clock is in the hour with the given number, counted from its start of 1970. The top of
the next hour is not in it. -/
def InHour (now : ZonedTime) (number : Int) : Prop :=
  number * Instant.hour ≤ now.localMs ∧ now.localMs < (number + 1) * Instant.hour

/-- There is an hour that both local clocks are in. -/
def SameHour (now other : ZonedTime) : Prop := ∃ number, now.InHour number ∧ other.InHour number

/-- A local clock is in one hour at a time, and dividing finds it. An hour holds the times that give
its number when they are divided by its length, rounding down. -/
theorem inHour_iff (now : ZonedTime) (number : Int) :
    now.InHour number ↔ now.localMs / Instant.hour = number := by
  simp only [InHour, Instant.hour]
  omega

/-- Local clocks are in the same hour exactly when dividing finds the same number. The hour that
both are in has the number that is found for either. -/
theorem sameHour_iff (now other : ZonedTime) :
    now.SameHour other ↔ now.localMs / Instant.hour = other.localMs / Instant.hour := by
  simp only [SameHour, inHour_iff]
  constructor
  · rintro ⟨number, first, second⟩
    rw [first, second]
  · intro same
    exact ⟨_, same, rfl⟩

end ZonedTime

namespace Window

/-- The window is one turn of the hour hand long, for the local clock of the given time. It starts
at the top of a local hour, not after that time but less than an hour before it. -/
structure StartsHourOf (window : Window) (now : ZonedTime) : Prop where
  offset : window.utcOffsetMs = now.offsetSeconds * 1000
  begun : window.startMs ≤ now.utcMs
  lasting : now.utcMs < window.startMs + Instant.hour
  span : window.endMs = window.startMs + Instant.turn
  full : Instant.hour ∣ window.startMs + window.utcOffsetMs

/-- The window of the local hour is the one window that starts this hour. A full hour that is not
after the local time and less than an hour before it is that time rounded down, and from the start,
the length and the offset everything else follows. -/
theorem startsHourOf_iff (window : Window) (now : ZonedTime) :
    window.StartsHourOf now ↔ window = ofHour now := by
  constructor
  · rintro ⟨offset, begun, lasting, span, number, top⟩
    have start : (now.utcMs + now.offsetSeconds * 1000) / Instant.hour * Instant.hour -
        now.offsetSeconds * 1000 = window.startMs := by
      rw [offset] at top
      simp only [Instant.hour] at top lasting ⊢
      omega
    rw [ofHour, start, ← span, ← offset]
  · rintro rfl
    have floor := hour_floor (now.utcMs + now.offsetSeconds * 1000)
    refine ⟨rfl, ?begun, ?lasting, rfl, ?full⟩
    case begun =>
      simp only [ofHour]
      omega
    case lasting =>
      simp only [ofHour]
      omega
    case full =>
      simp only [ofHour, Int.sub_add_cancel]
      exact Int.dvd_mul_left _ _

/-- Windows are equal exactly when they were made for the same clock in the same hour. The offset is
part of the window, and with equal offsets equal starts are equal full hours. -/
theorem ofHour_eq_iff (now other : ZonedTime) :
    ofHour now = ofHour other ↔ now.offsetSeconds = other.offsetSeconds ∧ now.SameHour other := by
  rw [ZonedTime.sameHour_iff]
  simp only [ofHour, ZonedTime.localMs, Window.mk.injEq]
  constructor
  · rintro ⟨start, -, offset⟩
    simp only [Instant.hour] at start ⊢
    omega
  · rintro ⟨offset, hour⟩
    rw [offset] at hour ⊢
    rw [hour]
    exact ⟨rfl, rfl, rfl⟩

/-- The window of an hour starts at the top of this hour on the local clock. Rounding the local time
down gives the number of the hour. -/
theorem startMs_ofHour (now : ZonedTime) (number : Int) (inHour : now.InHour number) :
    (ofHour now).startMs = number * Instant.hour - now.offsetSeconds * 1000 := by
  rw [ofHour, ← (now.inHour_iff number).mp inHour, ZonedTime.localMs]

/-- A later time on the same clock has no earlier window. Rounding down keeps the order of times,
and ends follow starts at a fixed distance. -/
theorem ofHour_mono (earlier later offsetSeconds : Int) (ordered : earlier ≤ later) :
    (ofHour ⟨earlier, offsetSeconds⟩).startMs ≤ (ofHour ⟨later, offsetSeconds⟩).startMs ∧
      (ofHour ⟨earlier, offsetSeconds⟩).endMs ≤ (ofHour ⟨later, offsetSeconds⟩).endMs := by
  simp only [ofHour, Instant.hour]
  omega

/-- The start of a window lies in the hour that the window was made for. On the local clock it is a
full hour, which is not moved by rounding down. -/
theorem ofHour_start (now : ZonedTime) :
    ofHour ⟨(ofHour now).startMs, now.offsetSeconds⟩ = ofHour now := by
  obtain ⟨offset, -, -, span, full⟩ := (startsHourOf_iff (ofHour now) now).mpr rfl
  have starts : (ofHour now).StartsHourOf ⟨(ofHour now).startMs, now.offsetSeconds⟩ := by
    refine ⟨offset, Int.le_refl _, ?_, span, full⟩
    simp only [Instant.hour]
    omega
  exact ((startsHourOf_iff _ _).mp starts).symm

/-- The start of a window is a time at which this window is found, even if the calendar keeps no
time that early. The sums and differences are those of the window itself, and it is a proper one. -/
theorem atTime_start (now : ZonedTime) (kept : now.Kept) :
    atTime ⟨(ofHour now).startMs, now.offsetSeconds⟩ = .ok (ofHour now) := by
  have proper := proper_ofHour now kept
  obtain ⟨start, finish⟩ := representable_ofHour now kept
  have found := atTime_of_representable ⟨(ofHour now).startMs, now.offsetSeconds⟩ proper.start
  rw [ofHour_start] at found
  exact found start finish

/-- On a clock less than a day away from absolute time every hour has its window. At every instant
that is kept a window is found. It starts the hour of this instant, its start on the local clock is
a full hour, no other window starts the same hour, and at its own start it is found again. A later
instant has no earlier window, and two instants have the same window exactly when they are in the
same hour of the clock. The window of the local hour is the one that is found, so each part is a
property of that window. -/
theorem atTime_hour_by_hour (offsetSeconds : Int) (west : -86400 < offsetSeconds)
    (east : offsetSeconds < 86400) :
    (∀ utcMs, Calendar.IsKept utcMs → ∃ window, atTime ⟨utcMs, offsetSeconds⟩ = .ok window ∧
      window.StartsHourOf ⟨utcMs, offsetSeconds⟩ ∧
      window.localStart = .ok (window.startMs + window.utcOffsetMs) ∧
      (∀ other : Window, other.StartsHourOf ⟨utcMs, offsetSeconds⟩ → other = window) ∧
      atTime ⟨window.startMs, offsetSeconds⟩ = .ok window) ∧
    ∀ earlier later before after, Calendar.IsKept earlier → Calendar.IsKept later →
      atTime ⟨earlier, offsetSeconds⟩ = .ok before → atTime ⟨later, offsetSeconds⟩ = .ok after →
      (earlier ≤ later → before.startMs ≤ after.startMs ∧ before.endMs ≤ after.endMs) ∧
      (before = after ↔
        (⟨earlier, offsetSeconds⟩ : ZonedTime).SameHour ⟨later, offsetSeconds⟩) := by
  constructor
  · intro utcMs instant
    have kept : (⟨utcMs, offsetSeconds⟩ : ZonedTime).Kept := ⟨instant, west, east⟩
    refine ⟨ofHour ⟨utcMs, offsetSeconds⟩, atTime_eq_ok _ kept, (startsHourOf_iff _ _).mpr rfl,
      ?_, ?_, atTime_start _ kept⟩
    · exact Instant.add_eq_ok_iff.mpr ⟨(proper_ofHour _ kept).start, rfl⟩
    · intro other
      exact (startsHourOf_iff other _).mp
  · intro earlier later before after keptEarlier keptLater foundBefore foundAfter
    rw [atTime_eq_ok _ ⟨keptEarlier, west, east⟩] at foundBefore
    rw [atTime_eq_ok _ ⟨keptLater, west, east⟩] at foundAfter
    obtain rfl := Except.ok.inj foundBefore
    obtain rfl := Except.ok.inj foundAfter
    refine ⟨ofHour_mono earlier later offsetSeconds, ?_⟩
    rw [ofHour_eq_iff]
    exact and_iff_right rfl

/-- A clock that is twenty minutes and thirty-four seconds behind, in the last millisecond before
1970. The hour lasts twenty minutes and a little more into 1970, and its window with it. -/
theorem atTime_hour_by_hour_of_odd_offset :
    (-86400 : Int) < -1234 ∧ (-1234 : Int) < 86400 ∧ Calendar.IsKept (-1) ∧
    Calendar.IsKept 1233999 ∧ Calendar.IsKept 1234000 ∧
    atTime ⟨-1, -1234⟩ = .ok ⟨-2366000, 40834000, -1234000⟩ ∧
    atTime ⟨1233999, -1234⟩ = .ok ⟨-2366000, 40834000, -1234000⟩ ∧
    atTime ⟨1234000, -1234⟩ = .ok ⟨1234000, 44434000, -1234000⟩ ∧
    (⟨-2366000, 40834000, -1234000⟩ : Window).localStart = .ok (-3600000) ∧
    (∀ other : Window, other.StartsHourOf ⟨-1, -1234⟩ →
      other = ⟨-2366000, 40834000, -1234000⟩) ∧
    atTime ⟨-2366000, -1234⟩ = .ok ⟨-2366000, 40834000, -1234000⟩ ∧
    (⟨-1, -1234⟩ : ZonedTime).SameHour ⟨1233999, -1234⟩ ∧
    ¬ (⟨-1, -1234⟩ : ZonedTime).SameHour ⟨1234000, -1234⟩ := by
  have west : (-86400 : Int) < -1234 := by decide
  have east : (-1234 : Int) < 86400 := by decide
  have first : Calendar.IsKept (-1) := by decide
  have last : Calendar.IsKept 1233999 := by decide
  have next : Calendar.IsKept 1234000 := by decide
  have hour : atTime ⟨-1, -1234⟩ = .ok ⟨-2366000, 40834000, -1234000⟩ := by decide +kernel
  have still : atTime ⟨1233999, -1234⟩ = .ok ⟨-2366000, 40834000, -1234000⟩ := by decide +kernel
  have later : atTime ⟨1234000, -1234⟩ = .ok ⟨1234000, 44434000, -1234000⟩ := by decide +kernel
  obtain ⟨each, both⟩ := atTime_hour_by_hour (-1234) west east
  obtain ⟨window, found, -, starts, only, again⟩ := each (-1) first
  obtain rfl := Except.ok.inj (found.symm.trans hour)
  obtain ⟨-, same⟩ := both _ _ _ _ first last hour still
  obtain ⟨-, differ⟩ := both _ _ _ _ first next hour later
  refine ⟨west, east, first, last, next, hour, still, later, starts, only, again, same.mp rfl, ?_⟩
  intro sameHour
  cases differ.mpr sameHour

end Window

end CalendarDial
