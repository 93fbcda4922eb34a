import CalendarDial.Proofs.Window

/-!
# Clipping what has been clipped

What clipping has left of an event lies inside the window, so there is nothing to cut off from it a
second time. But clipping also moves it to the local clock, and a second clipping to the same window
moves it once more. It gives the event back only if the local clock shows absolute time.

On the local clock itself clipping comes to rest: once the window has been moved there as well, what
was left of an event lies inside it and is moved no further.
-/

namespace CalendarDial

namespace Window

variable (window : Window)

/-- The window as the local clock shows it. Nothing is left to be added to its times. -/
def onLocalClock : Window :=
  ⟨window.startMs + window.utcOffsetMs, window.endMs + window.utcOffsetMs, 0⟩

/-- The window on the local clock holds the same events, which are on that clock already. What the
first window adds as its offset, the other one has in its ends. -/
theorem holds_onLocalClock_iff (event : ClippedEvent) :
    window.onLocalClock.Holds event ↔ window.Holds event := by
  constructor
  · rintro ⟨starts, forward, ends, shorter⟩
    simp only [onLocalClock] at starts ends shorter
    constructor <;> omega
  · rintro ⟨starts, forward, ends, shorter⟩
    refine ⟨?_, forward, ?_, ?_⟩ <;> simp only [onLocalClock] <;> omega

/-- If the local clock shows absolute time, an event inside the window is neither hidden, cut nor
moved. The event is shorter than the window, so it does not cover it, and cutting and moving leave
its times alone. -/
theorem Holds.untouched {window : Window} {event : ClippedEvent} (held : window.Holds event)
    (absolute : window.utcOffsetMs = 0) :
    window.Shows event.toRaw ∧
      max event.toRaw.startMs window.startMs + window.utcOffsetMs = event.startMs ∧
      min event.toRaw.endMs window.endMs + window.utcOffsetMs = event.endMs := by
  obtain ⟨starts, forward, ends, shorter⟩ := held
  simp only [Shows, ClippedEvent.toRaw]
  omega

/-- A window shows an event unchanged exactly when the local clock shows absolute time and the event
lies inside. On a clock that is ahead, what is shown starts later than the event does, and on one
that is behind it ends earlier. So only where there is nothing to add can an event be shown as it
is. -/
theorem part_toRaw_eq_iff (event : ClippedEvent) :
    window.part event.toRaw = some event ↔ window.utcOffsetMs = 0 ∧ window.Holds event := by
  constructor
  · intro unchanged
    refine ⟨?_, window.holds_of_part_eq_some event.toRaw event unchanged⟩
    rw [part] at unchanged
    split at unchanged
    · have same := Option.some.inj unchanged
      have start := congrArg ClippedEvent.startMs same
      have finish := congrArg ClippedEvent.endMs same
      simp only [ClippedEvent.toRaw] at start finish
      omega
    · cases unchanged
  · rintro ⟨absolute, held⟩
    obtain ⟨shown, start, finish⟩ := held.untouched absolute
    rw [part, if_pos shown, start, finish]
    rfl

/-- Clipping gives an event back exactly when the local clock shows absolute time, the event lies
inside the window, and 64 bits hold its times. The times of the event are then the sums that
clipping takes. -/
theorem clip_toRaw_eq_iff (event : ClippedEvent) :
    window.clip event.toRaw = .ok (some event) ↔
      window.utcOffsetMs = 0 ∧ window.Holds event ∧
        Instant.Representable event.startMs ∧ Instant.Representable event.endMs := by
  rw [clip_eq_ok_iff, part_toRaw_eq_iff]
  constructor
  · rintro ⟨fits, absolute, held⟩
    obtain ⟨shown, start, finish⟩ := held.untouched absolute
    have times := fits shown
    rw [start, finish] at times
    exact ⟨absolute, held, times⟩
  · rintro ⟨absolute, held, times⟩
    refine ⟨?_, absolute, held⟩
    obtain ⟨-, start, finish⟩ := held.untouched absolute
    rw [Fits, start, finish]
    exact fun _ => times

/-- What clipping has left of an event lies inside the window, and 64 bits hold its times. Clipping
has not overflowed, so both sums that it has taken fit. -/
theorem holds_of_clip_eq_some (event : RawEvent) (clipped : ClippedEvent)
    (left : window.clip event = .ok (some clipped)) :
    window.Holds clipped ∧
      Instant.Representable clipped.startMs ∧ Instant.Representable clipped.endMs := by
  obtain ⟨fits, shown⟩ := (window.clip_eq_ok_iff event (some clipped)).mp left
  refine ⟨window.holds_of_part_eq_some event clipped shown, ?_⟩
  rw [part] at shown
  split at shown
  · next visible =>
    obtain rfl := Option.some.inj shown
    exact fits visible
  · cases shown

/-- A window of one turn that starts where the given one does on the local clock is the given one on
the local clock. Both are one turn long, start at the same time and add nothing. -/
theorem eq_onLocalClock (localMs : Int) (moved : Window)
    (span : window.endMs = window.startMs + Instant.turn)
    (located : window.localStart = .ok localMs) (made : startingAt localMs 0 = .ok moved) :
    moved = window.onLocalClock := by
  obtain ⟨-, start⟩ := Instant.add_eq_ok_iff.mp located
  obtain ⟨-, ends⟩ := (startingAt_eq_ok_iff localMs 0 moved).mp made
  rw [ends, onLocalClock, span, ← start, Int.add_right_comm]

/-- Clipping again what clipping to a window has left of an event gives it back unchanged exactly
when the local clock shows absolute time. Clipping it again to the window that starts where the
local clock shows the first one to start, and which is itself in absolute time, always gives it
back. What is left of the event lies inside the window, so on the same window only the offset is in
question, and on the local clock there is none. -/
theorem clip_clipped (startMs utcOffsetMs : Int) (window : Window)
    (made : startingAt startMs utcOffsetMs = .ok window) (event : RawEvent)
    (clipped : ClippedEvent) (left : window.clip event = .ok (some clipped)) :
    (window.clip clipped.toRaw = .ok (some clipped) ↔ window.utcOffsetMs = 0) ∧
    ∀ localMs moved, window.localStart = .ok localMs → startingAt localMs 0 = .ok moved →
      moved.clip clipped.toRaw = .ok (some clipped) := by
  obtain ⟨held, times⟩ := window.holds_of_clip_eq_some event clipped left
  obtain ⟨-, ends⟩ := (startingAt_eq_ok_iff startMs utcOffsetMs window).mp made
  have span : window.endMs = window.startMs + Instant.turn := by rw [ends]
  refine ⟨?_, ?_⟩
  · rw [clip_toRaw_eq_iff]
    exact and_iff_left ⟨held, times⟩
  · intro localMs moved located again
    rw [window.eq_onLocalClock localMs moved span located again, clip_toRaw_eq_iff]
    exact ⟨rfl, (window.holds_onLocalClock_iff clipped).mpr held, times⟩

/-- An event that has begun before its window, on a clock that is an hour and a half ahead. The same
window moves what is left of it once more, the one on the local clock leaves it as it is. -/
theorem clip_clipped_of_begun :
    startingAt (-1800000) 5400000 = .ok ⟨-1800000, 41400000, 5400000⟩ ∧
    (⟨-1800000, 41400000, 5400000⟩ : Window).clip ⟨-7200000, 1800000, 3⟩ =
      .ok (some ⟨3600000, 7200000, 3⟩) ∧
    (⟨-1800000, 41400000, 5400000⟩ : Window).clip ⟨3600000, 7200000, 3⟩ ≠
      .ok (some ⟨3600000, 7200000, 3⟩) ∧
    (⟨-1800000, 41400000, 5400000⟩ : Window).localStart = .ok 3600000 ∧
    startingAt 3600000 0 = .ok ⟨3600000, 46800000, 0⟩ ∧
    (⟨3600000, 46800000, 0⟩ : Window).clip ⟨3600000, 7200000, 3⟩ =
      .ok (some ⟨3600000, 7200000, 3⟩) := by
  have made : startingAt (-1800000) 5400000 = .ok ⟨-1800000, 41400000, 5400000⟩ := rfl
  have left : (⟨-1800000, 41400000, 5400000⟩ : Window).clip ⟨-7200000, 1800000, 3⟩ =
      .ok (some ⟨3600000, 7200000, 3⟩) := rfl
  have located : (⟨-1800000, 41400000, 5400000⟩ : Window).localStart = .ok 3600000 := rfl
  have moved : startingAt 3600000 0 = .ok ⟨3600000, 46800000, 0⟩ := rfl
  obtain ⟨same, onLocal⟩ := clip_clipped _ _ _ made _ _ left
  refine ⟨made, left, ?_, located, moved, onLocal _ _ located moved⟩
  intro unchanged
  have absolute : (5400000 : Int) = 0 := same.mp unchanged
  omega

end Window

end CalendarDial
