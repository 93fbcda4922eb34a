import CalendarDial.Calendar.Timestamp
import CalendarDial.Proofs.Checked
import CalendarDial.Window

/-!
# What a window shows

A window shows the part of an event that lies inside it, unless that part is the whole window.
Clipping gives this part, and fails exactly when one of its ends has no local time that 64 bits
hold. If both ends of the window have one, then so has everything between them, and clipping cannot
fail, whatever the events.

The window of the current hour is such a window for every instant that the calendar keeps and every
offset of less than a day.
-/

namespace CalendarDial

/-- The instant falls in the years that are kept, and the local clock is less than a day away from
absolute time. -/
structure ZonedTime.Kept (now : ZonedTime) : Prop where
  instant : Calendar.IsKept now.utcMs
  west : -86400 < now.offsetSeconds
  east : now.offsetSeconds < 86400

namespace Window

/-- The window is one turn of the hour hand long, and both of its ends have a local time that 64
bits hold. -/
structure Proper (window : Window) : Prop where
  span : window.endMs = window.startMs + Instant.turn
  start : Instant.Representable (window.startMs + window.utcOffsetMs)
  finish : Instant.Representable (window.endMs + window.utcOffsetMs)

/-- The event and the window have some time in common, but not the whole window. -/
def Shows (window : Window) (event : RawEvent) : Prop :=
  max event.startMs window.startMs < min event.endMs window.endMs ∧
    ¬ (event.startMs ≤ window.startMs ∧ window.endMs ≤ event.endMs)

instance (window : Window) (event : RawEvent) : Decidable (window.Shows event) :=
  inferInstanceAs (Decidable (_ ∧ _))

/-- The part of an event that the window shows, on the local clock and in exact arithmetic. -/
def part (window : Window) (event : RawEvent) : Option ClippedEvent :=
  if window.Shows event then
    some ⟨max event.startMs window.startMs + window.utcOffsetMs,
      min event.endMs window.endMs + window.utcOffsetMs, event.color⟩
  else
    none

/-- No addition that clipping makes leaves 64 bits: where there is something to show, both ends of
it have a local time. -/
def Fits (window : Window) (event : RawEvent) : Prop :=
  window.Shows event →
    Instant.Representable (max event.startMs window.startMs + window.utcOffsetMs) ∧
      Instant.Representable (min event.endMs window.endMs + window.utcOffsetMs)

instance (window : Window) (event : RawEvent) : Decidable (window.Fits event) :=
  inferInstanceAs (Decidable (_ → _ ∧ _))

/-- Of the four comparisons that clipping makes, the two with the ends of the window follow from the
others. The later start is not before the start of the window, nor the earlier end after its end, so
all that is asked is whether the two are in order and whether the window is covered. -/
theorem clip_eq (window : Window) (event : RawEvent) :
    window.clip event =
      if window.Shows event then do
        let localStartMs ← Instant.add (max event.startMs window.startMs) window.utcOffsetMs
        let localEndMs ← Instant.add (min event.endMs window.endMs) window.utcOffsetMs
        pure (some ⟨localStartMs, localEndMs, event.color⟩)
      else
        pure none := by
  rw [clip]
  refine if_congr ?_ rfl rfl
  rw [Shows]
  omega

/-- Clipping gives the part that the window shows if no addition leaves 64 bits. Both additions come
out then, as the exact sums of which the part is made. -/
theorem clip_of_fits (window : Window) (event : RawEvent) (fits : window.Fits event) :
    window.clip event = .ok (window.part event) := by
  rw [clip_eq, part]
  by_cases shown : window.Shows event
  · obtain ⟨start, finish⟩ := fits shown
    rw [if_pos shown, if_pos shown, Instant.add_eq_ok_iff.mpr ⟨start, rfl⟩,
      Instant.add_eq_ok_iff.mpr ⟨finish, rfl⟩]
    rfl
  · rw [if_neg shown, if_neg shown]
    rfl

/-- Otherwise clipping fails, as an addition. There is something to show, and one of its ends has no
local time. The start is added first, but either addition fails in the same way. -/
theorem clip_of_not_fits (window : Window) (event : RawEvent) (overflows : ¬ window.Fits event) :
    window.clip event = .error .addition := by
  obtain ⟨shown, beyond⟩ := Classical.not_imp.mp overflows
  rw [clip_eq, if_pos shown]
  by_cases start : Instant.Representable (max event.startMs window.startMs + window.utcOffsetMs)
  · have finish := fun finish => beyond ⟨start, finish⟩
    rw [Instant.add_eq_ok_iff.mpr ⟨start, rfl⟩, Instant.add_eq_error_iff.mpr ⟨finish, rfl⟩]
    rfl
  · rw [Instant.add_eq_error_iff.mpr ⟨start, rfl⟩]
    rfl

/-- Clipping comes to an end exactly when no addition leaves 64 bits, and then it gives the part
that the window shows. The two cases, with and without an overflow, cannot give the same answer. -/
theorem clip_eq_ok_iff (window : Window) (event : RawEvent) (result : Option ClippedEvent) :
    window.clip event = .ok result ↔ window.Fits event ∧ window.part event = result := by
  by_cases fits : window.Fits event
  · rw [clip_of_fits window event fits, Except.ok.injEq]
    exact (and_iff_right fits).symm
  · rw [clip_of_not_fits window event fits]
    exact iff_of_false nofun fun clipped => fits clipped.1

/-- An event has no part in the window exactly when it is not shown. Where an event is shown there
is a part of it. -/
theorem part_eq_none_iff (window : Window) (event : RawEvent) :
    window.part event = none ↔ ¬ window.Shows event := by
  rw [part, ite_eq_right_iff, imp_iff_not nofun]

/-- What a proper window shows lies between its ends, so nothing overflows. Both ends have a local
time that 64 bits hold, and so has everything between them. -/
theorem Proper.fits {window : Window} (proper : window.Proper) (event : RawEvent) :
    window.Fits event := by
  have start := proper.start
  have finish := proper.finish
  rintro ⟨common, -⟩
  simp only [Instant.Representable] at start finish ⊢
  omega

/-- Clipping fails in one way only, by adding the offset. It gives the part where that fits, and
fails as an addition where it does not. -/
theorem clip_eq_error (window : Window) (event : RawEvent) (cause : Overflow)
    (failed : window.clip event = .error cause) : cause = .addition := by
  by_cases fits : window.Fits event
  · rw [clip_of_fits window event fits] at failed
    cases failed
  · rw [clip_of_not_fits window event fits] at failed
    exact (Except.error.inj failed).symm

/-- Clipping a list of events gives the parts that the window shows, in order, if no addition leaves
64 bits. Event by event the parts are there or are left out, and leaving out at once is the same as
leaving out in the end. -/
theorem clipAll_of_fits (window : Window) (events : List RawEvent)
    (fits : ∀ event ∈ events, window.Fits event) :
    window.clipAll events = .ok (events.filterMap window.part) := by
  have parts := mapM_eq_ok window.clip window.part events fun event present =>
    window.clip_of_fits event (fits event present)
  rw [clipAll, parts]
  show Except.ok ((events.map window.part).filterMap id) = _
  rw [List.filterMap_map, Function.id_comp]

/-- Clipping a list of events to a proper window gives the parts that the window shows, in order.
Whatever the events are, their parts fit. -/
theorem clipAll_eq_ok (window : Window) (proper : window.Proper) (events : List RawEvent) :
    window.clipAll events = .ok (events.filterMap window.part) :=
  window.clipAll_of_fits events fun event _ => proper.fits event

/-- Clipping a list of events and a reordering of it gives the same parts, reordered, or fails for
both. Clipping fails in one way only, so it makes no difference which event is met first. -/
theorem clipAll_perm (window : Window) (first second : List RawEvent)
    (reordered : first.Perm second) :
    (∃ parts others, window.clipAll first = .ok parts ∧ window.clipAll second = .ok others ∧
      parts.Perm others) ∨
    window.clipAll first = .error .addition ∧ window.clipAll second = .error .addition := by
  rw [clipAll, clipAll]
  rcases mapM_perm window.clip .addition window.clip_eq_error first second reordered with
    ⟨parts, others, clipped, also, same⟩ | ⟨fails, also⟩
  · rw [clipped, also]
    exact .inl ⟨_, _, rfl, rfl, same.filterMap id⟩
  · rw [fails, also]
    exact .inr ⟨rfl, rfl⟩

/-- The event lies between the ends of the window on the local clock, runs forward, and is shorter
than the window. -/
structure Holds (window : Window) (event : ClippedEvent) : Prop where
  starts : window.startMs + window.utcOffsetMs ≤ event.startMs
  forward : event.startMs < event.endMs
  ends : event.endMs ≤ window.endMs + window.utcOffsetMs
  shorter : event.endMs - event.startMs < window.endMs - window.startMs

/-- The part of an event that a window shows lies inside the window. The part runs from the later
start to the earlier end, and is shorter than the window because it is not the whole of it. -/
theorem holds_of_part_eq_some (window : Window) (event : RawEvent) (shown : ClippedEvent)
    (found : window.part event = some shown) : window.Holds shown := by
  rw [part] at found
  split at found
  · next visible =>
    obtain ⟨common, notAll⟩ := visible
    obtain rfl := Option.some.inj found
    constructor <;> dsimp only <;> omega
  · cases found

/-- The window from `startMs` on is given by its ends. The end is the start and one turn, and the
addition that finds it is all that could fail. -/
theorem startingAt_eq_ok_iff (startMs utcOffsetMs : Int) (window : Window) :
    startingAt startMs utcOffsetMs = .ok window ↔
      Instant.Representable (startMs + Instant.turn) ∧
        window = ⟨startMs, startMs + Instant.turn, utcOffsetMs⟩ := by
  rw [startingAt]
  by_cases fits : Instant.Representable (startMs + Instant.turn)
  · rw [Instant.add_eq_ok_iff.mpr ⟨fits, rfl⟩]
    simp [fits, bind, Except.bind, pure, Except.pure, eq_comm]
  · simp [Instant.add, fits, bind, Except.bind]

/-- The window from the top of the local hour, in exact arithmetic. -/
def ofHour (now : ZonedTime) : Window :=
  let utcOffsetMs := now.offsetSeconds * 1000
  let startMs := (now.utcMs + utcOffsetMs) / Instant.hour * Instant.hour - utcOffsetMs
  ⟨startMs, startMs + Instant.turn, utcOffsetMs⟩

/-- A kept instant moved by less than three days is far from the ends of 64 bits. The years that are
kept reach a few hundred thousand years to either side, and 64 bits of milliseconds several hundred
million. -/
theorem representable_of_kept (ms moved : Int) (kept : Calendar.IsKept ms)
    (before : ms - 259200000 ≤ moved) (after : moved ≤ ms + 259200000) :
    Instant.Representable moved := by
  simp only [Calendar.IsKept, Calendar.firstSecond, Calendar.lastSecond] at kept
  simp only [Instant.Representable, Instant.least, Instant.greatest]
  omega

/-- The local hour begins at most one hour before the local time. Dividing rounds down also before
1970, where local times are negative. -/
theorem hour_floor (localMs : Int) :
    localMs / Instant.hour * Instant.hour ≤ localMs ∧
      localMs < localMs / Instant.hour * Instant.hour + Instant.hour := by
  simp only [Instant.hour]
  omega

/-- The window of the local hour is found if 64 bits hold the local time and both of its ends. These
are the four sums and differences that are taken on the way, and rounding down takes none of them
out of range. -/
theorem atTime_of_representable (now : ZonedTime)
    (localTime : Instant.Representable (now.utcMs + now.offsetSeconds * 1000))
    (start : Instant.Representable (ofHour now).startMs)
    (finish : Instant.Representable (ofHour now).endMs) : atTime now = .ok (ofHour now) := by
  simp only [ofHour] at start finish
  simp only [atTime, Instant.add_eq_ok_iff.mpr ⟨localTime, rfl⟩,
    Instant.sub_eq_ok_iff.mpr ⟨start, rfl⟩, bind, Except.bind]
  exact (startingAt_eq_ok_iff _ _ _).mpr ⟨finish, rfl⟩

/-- What is less than a day away from the window of an hour that is kept is far from the ends of 64
bits. The window starts less than an hour before the instant and ends less than twelve hours after
it, which leaves room for a day on either side. -/
theorem representable_near_ofHour (now : ZonedTime) (kept : now.Kept) (ms : Int)
    (before : (ofHour now).startMs - 86400000 ≤ ms) (after : ms ≤ (ofHour now).endMs + 86400000) :
    Instant.Representable ms := by
  obtain ⟨instant, west, east⟩ := kept
  have floor := hour_floor (now.utcMs + now.offsetSeconds * 1000)
  simp only [ofHour, Instant.turn, Instant.hour] at before after floor
  exact representable_of_kept now.utcMs ms instant (by omega) (by omega)

/-- For every time that is kept, 64 bits hold the ends of the window of the local hour. They are no
further away from the window than nothing at all. -/
theorem representable_ofHour (now : ZonedTime) (kept : now.Kept) :
    Instant.Representable (ofHour now).startMs ∧ Instant.Representable (ofHour now).endMs := by
  have span : (ofHour now).endMs = (ofHour now).startMs + 43200000 := rfl
  constructor <;> apply representable_near_ofHour now kept <;> omega

/-- For every time that is kept there is a window of the local hour. The local time is less than a
day away from the instant, and the ends of the window are not far from either. -/
theorem atTime_eq_ok (now : ZonedTime) (kept : now.Kept) : atTime now = .ok (ofHour now) := by
  obtain ⟨start, finish⟩ := representable_ofHour now kept
  obtain ⟨instant, west, east⟩ := kept
  have localTime : Instant.Representable (now.utcMs + now.offsetSeconds * 1000) :=
    representable_of_kept now.utcMs _ instant (by omega) (by omega)
  exact atTime_of_representable now localTime start finish

/-- The window of the local hour is a proper one. It is one turn long by definition, and moving its
ends to the local clock moves them by less than a day, which keeps them far from the ends of 64
bits. -/
theorem proper_ofHour (now : ZonedTime) (kept : now.Kept) : (ofHour now).Proper := by
  have span : (ofHour now).endMs = (ofHour now).startMs + 43200000 := rfl
  have offset : (ofHour now).utcOffsetMs = now.offsetSeconds * 1000 := rfl
  have west := kept.west
  have east := kept.east
  refine ⟨rfl, ?_, ?_⟩ <;> apply representable_near_ofHour now kept <;> omega

end Window

end CalendarDial
