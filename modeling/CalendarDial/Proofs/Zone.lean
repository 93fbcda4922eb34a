import CalendarDial.Proofs.Display
import CalendarDial.Proofs.Pattern

/-!
# The same dial in another zone

Two local clocks that are whole hours apart begin their hours together, so at any instant they have
the same window. What the windows show differs in the times only, all of them by the distance of
the clocks. Such a difference is invisible to the display order and to overlap, and hence to both
engines.
-/

namespace CalendarDial

open Linear (Solver)

namespace ClippedEvent

/-- The event on a clock that is ahead. -/
def ahead (ms : Int) (event : ClippedEvent) : ClippedEvent :=
  ⟨event.startMs + ms, event.endMs + ms, event.color⟩

/-- An event has the same length on all clocks. Both its ends are moved by the same distance, which
cancels in the length. -/
@[simp] theorem bucket_ahead (ms : Int) (event : ClippedEvent) :
    (event.ahead ms).bucket = event.bucket := by
  simp only [bucket, ahead, Int.add_sub_add_right]

/-- One event may stand before another just if it may on another clock. Lengths are the same, and
starts, ends and colors are compared as before, because all times are moved alike. -/
theorem precedes_ahead_iff (ms : Int) (a b : ClippedEvent) :
    (a.ahead ms).Precedes (b.ahead ms) ↔ a.Precedes b := by
  simp only [Precedes, bucket_ahead]
  simp [ahead]

/-- Events overlap on one clock just if they do on another. The order of two times does not change
when both are moved by the same distance. -/
theorem overlaps_ahead_iff (ms : Int) (a b : ClippedEvent) :
    Overlaps (a.ahead ms) (b.ahead ms) ↔ Overlaps a b := by
  simp only [Overlaps, TimeSpan.startMs, TimeSpan.endMs, ahead]
  omega

end ClippedEvent

/-- The band of the event on a clock that is ahead. -/
def LeveledEvent.ahead (ms : Int) (band : LeveledEvent) : LeveledEvent :=
  ⟨band.event.ahead ms, band.minLevel, band.maxLevel⟩

/-- Events are arranged alike on all clocks. Sorting with an order that two lists agree on arranges
them in the same way, and the display order agrees. -/
theorem displayed_map_ahead (ms : Int) (events : List ClippedEvent) :
    displayed (events.map (ClippedEvent.ahead ms)) =
      (displayed events).map (ClippedEvent.ahead ms) := by
  have alike (a b : ClippedEvent) :
      (a.displayOrder b).isLE = ((a.ahead ms).displayOrder (b.ahead ms)).isLE := by
    rw [Bool.eq_iff_iff]
    simp [ClippedEvent.isLE_displayOrder_iff, ClippedEvent.precedes_ahead_iff]
  exact (List.map_mergeSort fun a _ b _ => alike a b).symm

namespace Window

/-- The same stretch of time for a clock that is ahead. -/
def ahead (ms : Int) (window : Window) : Window :=
  { window with utcOffsetMs := window.utcOffsetMs + ms }

/-- A window shows the same part of an event on all clocks. What is cut off an event is decided in
absolute time; only the move to local time differs. -/
theorem part_ahead (ms : Int) (window : Window) (event : RawEvent) :
    (window.ahead ms).part event = (window.part event).map (ClippedEvent.ahead ms) := by
  by_cases shown : window.Shows event
  · rw [part, part, if_pos shown, if_pos (show (window.ahead ms).Shows event from shown)]
    simp only [ahead, ClippedEvent.ahead, Option.map_some, Int.add_assoc]
  · rw [part, part, if_neg shown, if_neg (show ¬ (window.ahead ms).Shows event from shown)]
    rfl

/-- What a window shows differs between two clocks by their distance only. Part by part the events
differ so, and the display order is the same on both clocks. -/
theorem shown_ahead (ms : Int) (window : Window) (events : List RawEvent) :
    (window.ahead ms).shown events = (window.shown events).map (ClippedEvent.ahead ms) := by
  have parts : (window.ahead ms).part = Option.map (ClippedEvent.ahead ms) ∘ window.part :=
    funext (window.part_ahead ms)
  rw [shown, shown, parts, ← displayed_map_ahead, List.map_filterMap]
  rfl

/-- Clocks that are whole hours apart have the same window. The full hour on the one is the full
hour on the other moved by these hours, so in absolute time they are the same instant. -/
theorem ofHour_eq_ahead (utcMs west east : Int) (hours : (east - west) % 3600 = 0) :
    ofHour ⟨utcMs, east⟩ = (ofHour ⟨utcMs, west⟩).ahead ((east - west) * 1000) := by
  have start : (utcMs + east * 1000) / Instant.hour * Instant.hour - east * 1000 =
      (utcMs + west * 1000) / Instant.hour * Instant.hour - west * 1000 := by
    simp only [Instant.hour]
    omega
  have offset : east * 1000 = west * 1000 + (east - west) * 1000 := by omega
  simp only [ofHour, ahead, start]
  rw [← offset]

end Window

/-- Outcomes for the same events on two clocks that came about alike differ in the times only. Twin
bands have the same levels, and the events of each pair of twins are an event and its image on the
other clock. -/
theorem Layout.Alike.events_ahead (ms : Int) (events : List ClippedEvent) (one other : Layout)
    (alike : one.Alike (events.map fun event => (event, event.ahead ms)) other) :
    other.events = one.events.map (LeveledEvent.ahead ms) := by
  obtain ⟨-, twins, left, right, listed⟩ := alike
  rw [left, right, List.map_map]
  apply List.map_congr_left
  intro twin present
  obtain ⟨event, -, same⟩ := List.mem_map.mp (listed.subset (List.mem_map_of_mem present))
  simp only [Function.comp, Twin.left, Twin.right, LeveledEvent.ahead, ← same]

/-- Two clocks that are whole hours apart, each less than a day away from absolute time, have the
same window at every instant that is kept. The layouts on the two clocks come about alike and have
the same bands for the same events, whose times differ by the distance of the clocks. The solver can
be any function of the program that it is given. Both windows show lists of events that overlap
alike, position by position, so the layouts of the two lists come about in the same way. -/
theorem outcomeForWith_ahead (solver : Solver) (settings : LayoutSettings) (events : List RawEvent)
    (utcMs west east : Int) (keptWest : (⟨utcMs, west⟩ : ZonedTime).Kept)
    (keptEast : (⟨utcMs, east⟩ : ZonedTime).Kept) (hours : (east - west) % 3600 = 0) :
    ∃ before after one other, Window.atTime ⟨utcMs, west⟩ = .ok before ∧
      Window.atTime ⟨utcMs, east⟩ = .ok after ∧
      before.startMs = after.startMs ∧ before.endMs = after.endMs ∧
      outcomeForWith solver settings before events = .ok one ∧
      outcomeForWith solver settings after events = .ok other ∧
      one.engine = other.engine ∧ one.fellBack = other.fellBack ∧
      one.violations = other.violations ∧ one.layout.maxLevel = other.layout.maxLevel ∧
      other.layout.events = one.layout.events.map (LeveledEvent.ahead ((east - west) * 1000)) := by
  let before := Window.ofHour ⟨utcMs, west⟩
  let after := Window.ofHour ⟨utcMs, east⟩
  let ms := (east - west) * 1000
  let pairs := (before.shown events).map fun event => (event, event.ahead ms)
  have moved : after = before.ahead ms := Window.ofHour_eq_ahead utcMs west east hours
  have left : pairs.map Prod.fst = before.shown events := by
    simp [pairs, Function.comp_def]
  have right : pairs.map Prod.snd = after.shown events := by
    rw [moved, Window.shown_ahead]
    simp [pairs]
  have same : SamePattern pairs := by
    apply List.pairwise_map.mpr
    apply List.pairwise_of_forall
    intro a b
    exact (ClippedEvent.overlaps_ahead_iff ms a b).symm
  have alike := computeLayoutWith_alike solver settings pairs same
  rw [left, right] at alike
  refine ⟨before, after, _, _, Window.atTime_eq_ok _ keptWest, Window.atTime_eq_ok _ keptEast,
    ?_, ?_, outcomeForWith_eq_ok solver settings before (Window.proper_ofHour _ keptWest) events,
    outcomeForWith_eq_ok solver settings after (Window.proper_ofHour _ keptEast) events,
    alike.engine, alike.fellBack, alike.violations, alike.layout.1,
    alike.layout.events_ahead ms (before.shown events)⟩
  · rw [moved]
    rfl
  · rw [moved]
    rfl

/-- Three events seen a second before 1970, half an hour west and an hour and a half east. The first
has begun before the window and ends before the others begin. -/
theorem outcomeForWith_ahead_of_two_hours :
    (⟨-1000, -1800⟩ : ZonedTime).Kept ∧ (⟨-1000, 5400⟩ : ZonedTime).Kept ∧
    (5400 - -1800 : Int) % 3600 = 0 ∧
    Window.atTime ⟨-1000, -1800⟩ = .ok ⟨-1800000, 41400000, -1800000⟩ ∧
    Window.atTime ⟨-1000, 5400⟩ = .ok ⟨-1800000, 41400000, 5400000⟩ ∧
    outcomeForWith Bands.solver ⟨.greedy, .greedy, 10⟩ ⟨-1800000, 41400000, 5400000⟩
        [⟨-7200000, -1000000, 3⟩, ⟨0, 1800000, 1⟩, ⟨600000, 7200000, 2⟩] =
      .ok ⟨⟨[⟨⟨6000000, 12600000, 2⟩, 0, 0⟩, ⟨⟨5400000, 7200000, 1⟩, 1, 1⟩,
        ⟨⟨3600000, 4400000, 3⟩, 0, 1⟩], 1⟩, .greedy, false, []⟩ := by
  have keptWest : (⟨-1000, -1800⟩ : ZonedTime).Kept := ⟨by decide, by decide, by decide⟩
  have keptEast : (⟨-1000, 5400⟩ : ZonedTime).Kept := ⟨by decide, by decide, by decide⟩
  have hours : (5400 - -1800 : Int) % 3600 = 0 := by decide
  have west : Window.atTime ⟨-1000, -1800⟩ = .ok ⟨-1800000, 41400000, -1800000⟩ := by
    decide +kernel
  have east : Window.atTime ⟨-1000, 5400⟩ = .ok ⟨-1800000, 41400000, 5400000⟩ := by
    decide +kernel
  have known : outcomeForWith Bands.solver ⟨.greedy, .greedy, 10⟩ ⟨-1800000, 41400000, -1800000⟩
      [⟨-7200000, -1000000, 3⟩, ⟨0, 1800000, 1⟩, ⟨600000, 7200000, 2⟩] =
      .ok ⟨⟨[⟨⟨-1200000, 5400000, 2⟩, 0, 0⟩, ⟨⟨-1800000, 0, 1⟩, 1, 1⟩,
        ⟨⟨-3600000, -2800000, 3⟩, 0, 1⟩], 1⟩, .greedy, false, []⟩ := by cbv
  obtain ⟨before, after, one, other, madeWest, madeEast, -, -, found, also, engine, fellBack,
      violations, highest, times⟩ :=
    outcomeForWith_ahead Bands.solver ⟨.greedy, .greedy, 10⟩
      [⟨-7200000, -1000000, 3⟩, ⟨0, 1800000, 1⟩, ⟨600000, 7200000, 2⟩]
      (-1000) (-1800) 5400 keptWest keptEast hours
  obtain rfl := Except.ok.inj (madeWest.symm.trans west)
  obtain rfl := Except.ok.inj (madeEast.symm.trans east)
  obtain rfl := Except.ok.inj (found.symm.trans known)
  obtain ⟨⟨bands, top⟩, madeBy, late, broken⟩ := other
  cases engine
  cases fellBack
  cases violations
  cases highest
  cases times
  exact ⟨keptWest, keptEast, hours, west, east, also⟩

end CalendarDial
