import Mathlib.Data.Set.Basic
import CalendarDial.Proofs.Window

/-!
# What clipping keeps, instant by instant

A span of time is the set of its instants, from its start on and before its end. What there is to
see of an event are the instants that it has in common with the window. Clipping compares ends only,
but it drops an event exactly when there is nothing to see of it or the whole window, and otherwise
keeps what there is to see and nothing else. The ends of a clipped event are in order, so the
overlap of two clipped events, which compares ends too, says that some instant lies in both.
-/

namespace CalendarDial

/-- The instants of a span: its start and all later ones before its end. -/
def instants {α : Type} [TimeSpan α] (span : α) : Set Int :=
  {t | TimeSpan.startMs span ≤ t ∧ t < TimeSpan.endMs span}

/-- An instant of a span is not before its start, and is before its end. This is how the set is
defined, for spans of every type. -/
@[simp] theorem mem_instants_iff {α : Type} [TimeSpan α] (span : α) (t : Int) :
    t ∈ instants span ↔ TimeSpan.startMs span ≤ t ∧ t < TimeSpan.endMs span := Iff.rfl

/-- Spans that run forward overlap exactly when they have an instant in common. The later of the two
starts lies in both if they overlap; it is not before the other start, and before both ends. -/
theorem overlaps_iff_exists {α β : Type} [TimeSpan α] [TimeSpan β] (a : α) (b : β)
    (first : TimeSpan.startMs a < TimeSpan.endMs a)
    (second : TimeSpan.startMs b < TimeSpan.endMs b) :
    Overlaps a b ↔ ∃ t, t ∈ instants a ∧ t ∈ instants b := by
  simp only [Overlaps, mem_instants_iff]
  constructor
  · rintro ⟨before, after⟩
    refine ⟨max (TimeSpan.startMs a) (TimeSpan.startMs b), ?_⟩
    omega
  · rintro ⟨t, inFirst, inSecond⟩
    omega

instance : TimeSpan Window := ⟨Window.startMs, Window.endMs⟩

namespace Window

variable (window : Window)

/-- What there is to see of an event: the instants that it has in common with the window. -/
def visible (event : RawEvent) : Set Int := instants window ∩ instants event

/-- What there is to see of an event runs from the later start to the earlier end. An instant is in
both spans just if it is not before either start and before both ends. -/
theorem mem_visible_iff (event : RawEvent) (t : Int) :
    t ∈ window.visible event ↔
      max event.startMs window.startMs ≤ t ∧ t < min event.endMs window.endMs := by
  simp only [visible, Set.mem_inter_iff, mem_instants_iff, TimeSpan.startMs, TimeSpan.endMs]
  omega

/-- There is something to see of an event exactly when the later start is before the earlier end.
The later start is the first instant there is, if there is any. -/
theorem visible_ne_empty_iff (event : RawEvent) :
    window.visible event ≠ ∅ ↔
      max event.startMs window.startMs < min event.endMs window.endMs := by
  rw [← Set.nonempty_iff_ne_empty]
  constructor
  · rintro ⟨t, seen⟩
    rw [mem_visible_iff] at seen
    omega
  · intro ordered
    refine ⟨max event.startMs window.startMs, (window.mem_visible_iff event _).mpr ?_⟩
    omega

/-- All of a window that is not empty can be seen exactly when the event reaches both of its ends.
The first and the last instant of the window lie in the event if all of them do; and if these two
do, so do all between them. -/
theorem visible_eq_instants_iff (event : RawEvent) (forward : window.startMs < window.endMs) :
    window.visible event = instants window ↔
      event.startMs ≤ window.startMs ∧ window.endMs ≤ event.endMs := by
  rw [visible, Set.inter_eq_left]
  constructor
  · intro inside
    have first : window.startMs ∈ instants event := inside ⟨Int.le_refl _, forward⟩
    have last : window.endMs - 1 ∈ instants event :=
      inside ⟨Int.le_sub_one_of_lt forward, Int.sub_one_lt_of_le (Int.le_refl _)⟩
    exact ⟨first.1, Int.le_of_sub_one_lt last.2⟩
  · rintro ⟨before, after⟩ t ⟨notBefore, notAfter⟩
    exact ⟨Int.le_trans before notBefore, Int.lt_of_lt_of_le notAfter after⟩

/-- An event is shown exactly when there is something to see of it, but not the whole window. A
window of which something can be seen is not empty, so the comparison of ends says the same as the
one of sets. -/
theorem shows_iff (event : RawEvent) :
    window.Shows event ↔ window.visible event ≠ ∅ ∧ window.visible event ≠ instants window := by
  rw [Shows, visible_ne_empty_iff]
  refine and_congr_right fun ordered => not_congr ?_
  exact (window.visible_eq_instants_iff event (by omega)).symm

/-- Nothing is left of an event exactly when there is nothing to see of it, or the whole window.
Then nothing is added either, so nothing can overflow. Clipping gives nothing where the event is not
shown, and it makes its additions only where it is. -/
theorem clip_eq_none_iff (event : RawEvent) :
    window.clip event = .ok none ↔
      window.visible event = ∅ ∨ window.visible event = instants window := by
  have hidden : ¬ window.Shows event ↔
      window.visible event = ∅ ∨ window.visible event = instants window := by
    rw [shows_iff, not_and_or, not_not, not_not]
  rw [← hidden, clip_eq_ok_iff, part_eq_none_iff]
  exact and_iff_right_of_imp fun notShown shown => absurd shown notShown

/-- What is left of an event is what there is to see of it, moved to the local clock. Both ends are
moved by the offset of the window, and so is every instant between them. -/
theorem mem_instants_of_clip (event : RawEvent) (clipped : ClippedEvent)
    (left : window.clip event = .ok (some clipped)) :
    clipped.startMs < clipped.endMs ∧ clipped.color = event.color ∧
      ∀ t, t + window.utcOffsetMs ∈ instants clipped ↔ t ∈ window.visible event := by
  obtain ⟨-, shown⟩ := (window.clip_eq_ok_iff event (some clipped)).mp left
  refine ⟨(window.holds_of_part_eq_some event clipped shown).forward, ?_⟩
  rw [part] at shown
  split at shown
  · obtain rfl := Option.some.inj shown
    refine ⟨rfl, fun t => ?_⟩
    rw [mem_visible_iff]
    exact and_congr (Int.add_le_add_iff_right _) (Int.add_lt_add_iff_right _)
  · cases shown

/-- Two events of which something is left overlap exactly when some instant of the window lies in
both of them. An instant in both parts is, moved back from the local clock, an instant of the window
and of both events, and the other way round. -/
theorem overlaps_of_clip_iff (a b : RawEvent) (left right : ClippedEvent)
    (first : window.clip a = .ok (some left)) (second : window.clip b = .ok (some right)) :
    Overlaps left right ↔ ∃ t ∈ instants window, t ∈ instants a ∧ t ∈ instants b := by
  obtain ⟨forwardLeft, -, sameLeft⟩ := window.mem_instants_of_clip a left first
  obtain ⟨forwardRight, -, sameRight⟩ := window.mem_instants_of_clip b right second
  rw [overlaps_iff_exists left right forwardLeft forwardRight]
  constructor
  · rintro ⟨t, inLeft, inRight⟩
    have back : t - window.utcOffsetMs + window.utcOffsetMs = t := Int.sub_add_cancel _ _
    obtain ⟨inWindow, inFirst⟩ := (sameLeft (t - window.utcOffsetMs)).mp (back.symm ▸ inLeft)
    obtain ⟨-, inSecond⟩ := (sameRight (t - window.utcOffsetMs)).mp (back.symm ▸ inRight)
    exact ⟨t - window.utcOffsetMs, inWindow, inFirst, inSecond⟩
  · rintro ⟨t, inWindow, inFirst, inSecond⟩
    exact ⟨t + window.utcOffsetMs, (sameLeft t).mpr ⟨inWindow, inFirst⟩,
      (sameRight t).mpr ⟨inWindow, inSecond⟩⟩

/-- Clipping is exact, instant by instant, whatever the window and the events. It overflows exactly
when one of its additions leaves 64 bits. Nothing is left of an event exactly when it has no instant
in common with the window, or all of them. Otherwise, unless it overflows, it gives an event of the
same color that runs forward and whose instants are the common ones on the local clock. Two events
of which something is left overlap exactly when some instant of the window lies in both of them, and
from a list of events come those of which something is left, in order. The parts are what has been
found about single events, about two of them and about lists. -/
theorem clip_instant_by_instant :
    (∀ event, window.clip event = .error .addition ↔ ¬ window.Fits event) ∧
    (∀ event, window.clip event = .ok none ↔
      window.visible event = ∅ ∨ window.visible event = instants window) ∧
    (∀ event, window.Fits event →
      window.visible event ≠ ∅ → window.visible event ≠ instants window →
      ∃ clipped, window.clip event = .ok (some clipped) ∧
        clipped.startMs < clipped.endMs ∧ clipped.color = event.color ∧
        ∀ t, t + window.utcOffsetMs ∈ instants clipped ↔ t ∈ window.visible event) ∧
    (∀ a b left right, window.clip a = .ok (some left) → window.clip b = .ok (some right) →
      (Overlaps left right ↔ ∃ t ∈ instants window, t ∈ instants a ∧ t ∈ instants b)) ∧
    ∀ events : List RawEvent, (∀ event ∈ events, window.Fits event) →
      ∃ parts : List (Option ClippedEvent), events.map window.clip = parts.map .ok ∧
        window.clipAll events = .ok (parts.filterMap id) := by
  refine ⟨?overflow, window.clip_eq_none_iff, ?survivor, window.overlaps_of_clip_iff, ?list⟩
  case overflow =>
    intro event
    refine ⟨fun overflowed fits => ?_, window.clip_of_not_fits event⟩
    cases overflowed.symm.trans (window.clip_of_fits event fits)
  case survivor =>
    intro event fits seen notAll
    have shown := (window.shows_iff event).mpr ⟨seen, notAll⟩
    have left := window.clip_of_fits event fits
    rw [part, if_pos shown] at left
    exact ⟨_, left, window.mem_instants_of_clip event _ left⟩
  case list =>
    intro events fits
    refine ⟨events.map window.part, ?_, ?_⟩
    · rw [List.map_map]
      exact List.map_congr_left fun event present => window.clip_of_fits event (fits event present)
    · rw [clipAll_of_fits window events fits, List.filterMap_map, Function.id_comp]

/-- The twelve hours from half an hour before 1970, on a clock that is an hour and a half ahead. Of
an event that has begun before and of one that ends afterwards the parts inside are left, and some
instant of the window lies in both. Of one that ends before it starts, and of one that covers the
window, nothing is left. -/
theorem clip_instant_by_instant_of_four :
    startingAt (-1800000) 5400000 = .ok ⟨-1800000, 41400000, 5400000⟩ ∧
    (∀ event ∈ [⟨-7200000, 1800000, 3⟩, ⟨900000, 0, 1⟩, ⟨-1800000, 41400000, 4⟩,
      ⟨600000, 50000000, 2⟩], (⟨-1800000, 41400000, 5400000⟩ : Window).Fits event) ∧
    (⟨-1800000, 41400000, 5400000⟩ : Window).visible ⟨-7200000, 1800000, 3⟩ ≠ ∅ ∧
    (⟨-1800000, 41400000, 5400000⟩ : Window).visible ⟨-7200000, 1800000, 3⟩ ≠
      instants (⟨-1800000, 41400000, 5400000⟩ : Window) ∧
    (∃ clipped, (⟨-1800000, 41400000, 5400000⟩ : Window).clip ⟨-7200000, 1800000, 3⟩ =
        .ok (some clipped) ∧
      clipped.startMs < clipped.endMs ∧ clipped.color = 3 ∧
      ∀ t, t + 5400000 ∈ instants clipped ↔
        t ∈ (⟨-1800000, 41400000, 5400000⟩ : Window).visible ⟨-7200000, 1800000, 3⟩) ∧
    (∃ t ∈ instants (⟨-1800000, 41400000, 5400000⟩ : Window),
      t ∈ instants (⟨-7200000, 1800000, 3⟩ : RawEvent) ∧
        t ∈ instants (⟨600000, 50000000, 2⟩ : RawEvent)) ∧
    (⟨-1800000, 41400000, 5400000⟩ : Window).clipAll
      [⟨-7200000, 1800000, 3⟩, ⟨900000, 0, 1⟩, ⟨-1800000, 41400000, 4⟩, ⟨600000, 50000000, 2⟩] =
        .ok [⟨3600000, 7200000, 3⟩, ⟨6000000, 46800000, 2⟩] := by
  have made : startingAt (-1800000) 5400000 = .ok ⟨-1800000, 41400000, 5400000⟩ := rfl
  have fits : ∀ event ∈ [⟨-7200000, 1800000, 3⟩, ⟨900000, 0, 1⟩, ⟨-1800000, 41400000, 4⟩,
      ⟨600000, 50000000, 2⟩], (⟨-1800000, 41400000, 5400000⟩ : Window).Fits event := by decide
  obtain ⟨seen, notAll⟩ :=
    (shows_iff ⟨-1800000, 41400000, 5400000⟩ ⟨-7200000, 1800000, 3⟩).mp (by decide)
  obtain ⟨-, -, survivor, overlap, list⟩ :=
    clip_instant_by_instant ⟨-1800000, 41400000, 5400000⟩
  obtain ⟨parts, each, all⟩ := list _ fits
  have four : parts = [some ⟨3600000, 7200000, 3⟩, none, none, some ⟨6000000, 46800000, 2⟩] :=
    (List.map_inj_right fun _ _ => Except.ok.inj).mp (each.symm.trans rfl)
  subst four
  refine ⟨made, fits, seen, notAll, survivor _ (fits _ List.mem_cons_self) seen notAll, ?_, all⟩
  exact (overlap ⟨-7200000, 1800000, 3⟩ ⟨600000, 50000000, 2⟩ _ _ rfl rfl).mp (by decide)

end Window

end CalendarDial
