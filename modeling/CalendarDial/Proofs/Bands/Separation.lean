import CalendarDial.Proofs.Bands.Demands
import CalendarDial.Proofs.Bands.Rounding
import CalendarDial.Proofs.Violation

/-!
# Bands of a feasible point stay apart

However a feasible point was found, its bands can be shown in whole levels: each band covers at
least one level, none reaches the end of the axis, and the band of an earlier event lies wholly
below that of a later one that overlaps it. Taking the end of a band at least at its start, and
never below zero, are precautions that nothing feasible needs.
-/

namespace CalendarDial.Bands

/-- Each event keeps its place and gets the levels of its band. -/
theorem getElem?_roundBands (axis : Nat) (x : Point) (events : List ClippedEvent) (i : Nat)
    (band : LeveledEvent) :
    (roundBands axis x events)[i]? = some band ↔
      ∃ event, events[i]? = some event ∧
        band = ⟨event, (levelsOf axis (x.start i) (x.size i)).1,
          (levelsOf axis (x.start i) (x.size i)).2⟩ := by
  rw [roundBands, List.getElem?_mapIdx, Option.map_eq_some_iff]
  exact exists_congr fun event => and_congr_right fun _ => eq_comm

/-- No event is lost, added or moved. -/
theorem map_event_roundBands (axis : Nat) (x : Point) (events : List ClippedEvent) :
    (roundBands axis x events).map LeveledEvent.event = events := by
  rw [roundBands, List.mapIdx_eq_zipIdx_map, List.map_map]
  exact List.zipIdx_map_fst 0 events

/-- Two overlapping bands at positions in order come from an overlapping pair of events. Bands have
the times of their events. -/
theorem mem_pairs_of_overlaps (axis : Nat) (x : Point) (events : List ClippedEvent) (i j : Nat)
    (lower upper : LeveledEvent) (ordered : i < j)
    (first : (roundBands axis x events)[i]? = some lower)
    (second : (roundBands axis x events)[j]? = some upper) (overlap : Overlaps lower upper) :
    (i, j) ∈ (Program.ofEvents events axis).pairs := by
  obtain ⟨a, foundFirst, rfl⟩ := (getElem?_roundBands axis x events i lower).mp first
  obtain ⟨b, foundSecond, rfl⟩ := (getElem?_roundBands axis x events j upper).mp second
  exact mem_positionPairs_iff.mpr ⟨ordered, a, b, foundFirst, foundSecond, overlap⟩

/-- The levels of a band of a feasible point: they run from its rounded start to one below its
rounded end, which is above the start and at most the end of the axis. The band has a size of at
least one and ends on the axis, which is all that rounding asks for. -/
theorem levels_of_feasible (events : List ClippedEvent) (axis : Nat) (x : Point)
    (feasible : (Program.ofEvents events axis).Feasible x) (i : Nat) (band : LeveledEvent)
    (found : (roundBands axis x events)[i]? = some band) :
    band.minLevel = toLevel axis (x.start i) ∧
      band.maxLevel = toLevel axis (x.start i + x.size i) - 1 ∧
      toLevel axis (x.start i) < toLevel axis (x.start i + x.size i) := by
  obtain ⟨event, present, rfl⟩ := (getElem?_roundBands axis x events i band).mp found
  have bound : i < events.length := (List.getElem?_eq_some_iff.mp present).1
  obtain ⟨start, -, thick, -, within⟩ := ((Program.feasible_iff _ x).mp feasible).1 i bound
  have levels := levelsOf_eq axis (x.start i) (x.size i) start thick within
  exact ⟨congrArg Prod.fst levels, congrArg Prod.snd levels,
    toLevel_start_lt_end axis (x.start i) (x.size i) start thick within⟩

/-- Of two overlapping bands of a feasible point, the earlier one ends below the other. Their events
are a pair, so the earlier band ends at or below the start of the later one, and rounding keeps
this. -/
theorem maxLevel_lt_minLevel (events : List ClippedEvent) (axis : Nat) (x : Point)
    (feasible : (Program.ofEvents events axis).Feasible x) (i j : Nat) (lower upper : LeveledEvent)
    (ordered : i < j) (first : (roundBands axis x events)[i]? = some lower)
    (second : (roundBands axis x events)[j]? = some upper) (overlap : Overlaps lower upper) :
    lower.maxLevel < upper.minLevel := by
  obtain ⟨-, lowerEnd, covers⟩ := levels_of_feasible events axis x feasible i lower first
  obtain ⟨upperStart, -, -⟩ := levels_of_feasible events axis x feasible j upper second
  obtain ⟨singles, pairs⟩ := (Program.feasible_iff _ x).mp feasible
  have paired := mem_pairs_of_overlaps axis x events i j lower upper ordered first second overlap
  have below : x.start i + x.size i ≤ x.start j := pairs i j paired
  obtain ⟨_, bound⟩ := Program.inRange_ofEvents events axis i j paired
  obtain ⟨start, -, thick, -, -⟩ := singles i (by omega)
  obtain ⟨-, within, -⟩ := singles j bound
  have rounded : toLevel axis (x.start i + x.size i) ≤ toLevel axis (x.start j) :=
    toLevel_le axis _ _ (by linarith) below within
  omega

/-- The bands of a feasible point make a valid layout. The conditions on a single band are what its
rounded ends say, and a level shared by two overlapping bands would be one above the earlier and
below the later. -/
theorem valid_roundBands (events : List ClippedEvent) (axis : Nat) (x : Point)
    (feasible : (Program.ofEvents events axis).Feasible x) :
    (Layout.mk (roundBands axis x events) axis).Valid := by
  have each (band : LeveledEvent) (present : band ∈ roundBands axis x events) :
      band.minLevel ≤ band.maxLevel ∧ band.maxLevel ≤ axis := by
    obtain ⟨i, found⟩ := List.mem_iff_getElem?.mp present
    obtain ⟨start, finish, covers⟩ := levels_of_feasible events axis x feasible i band found
    have confined : toLevel axis (x.start i + x.size i) ≤ axis := toLevel_le_axis axis _
    omega
  refine ⟨fun band present => (each band present).1, fun band present => (each band present).2, ?_⟩
  apply List.pairwise_iff_getElem.mpr
  rintro i j boundFirst boundSecond ordered overlap level ⟨⟨-, upper⟩, lower, -⟩
  have apart := maxLevel_lt_minLevel events axis x feasible i j _ _ ordered
    (List.getElem?_eq_getElem boundFirst) (List.getElem?_eq_getElem boundSecond) overlap
  omega

/-- Rounding is sound at every feasible point, whatever solver found it. The levels of a band are
its rounded start and one below its rounded end, and neither correction ever changes them: the
rounded end is not zero, and one below it is not below the rounded start. No band reaches the end of
the axis, and the band of an earlier event lies strictly below that of a later one that overlaps
it. -/
theorem roundBands_of_feasible (events : List ClippedEvent) (axis : Nat) (x : Point)
    (feasible : (Program.ofEvents events axis).Feasible x) :
    (roundBands axis x events).map LeveledEvent.event = events ∧
      (∀ (i : Nat) (band : LeveledEvent), (roundBands axis x events)[i]? = some band →
        band.minLevel = toLevel axis (x.start i) ∧
          0 < toLevel axis (x.start i + x.size i) ∧
          toLevel axis (x.start i) ≤ toLevel axis (x.start i + x.size i) - 1 ∧
          band.maxLevel = toLevel axis (x.start i + x.size i) - 1 ∧
          band.minLevel ≤ band.maxLevel ∧ band.maxLevel + 1 ≤ axis) ∧
      ∀ (i j : Nat) (lower upper : LeveledEvent), i < j →
        (roundBands axis x events)[i]? = some lower →
          (roundBands axis x events)[j]? = some upper → Overlaps lower upper →
            lower.maxLevel < upper.minLevel := by
  refine ⟨map_event_roundBands axis x events, fun i band found => ?_, fun i j lower upper =>
    maxLevel_lt_minLevel events axis x feasible i j lower upper⟩
  obtain ⟨start, finish, covers⟩ := levels_of_feasible events axis x feasible i band found
  have confined : toLevel axis (x.start i + x.size i) ≤ axis := toLevel_le_axis axis _
  refine ⟨start, ?_, ?_, finish, ?_, ?_⟩ <;> omega

/-- Two overlapping events that share an axis of five levels evenly. The bands touch in the middle
of a level, which goes to the earlier event, and still have no level in common. -/
theorem roundBands_of_two_halves :
    (Program.ofEvents [⟨0, 60, 1⟩, ⟨30, 90, 2⟩] 5).Feasible ⟨fun i => 5 / 2 * i, fun _ => 5 / 2⟩ ∧
      roundBands 5 ⟨fun i => 5 / 2 * i, fun _ => 5 / 2⟩ [⟨0, 60, 1⟩, ⟨30, 90, 2⟩] =
        [⟨⟨0, 60, 1⟩, 0, 2⟩, ⟨⟨30, 90, 2⟩, 3, 4⟩] ∧
      (⟨⟨0, 60, 1⟩, 0, 2⟩ : LeveledEvent).maxLevel <
        (⟨⟨30, 90, 2⟩, 3, 4⟩ : LeveledEvent).minLevel := by
  have feasible : (Program.ofEvents [⟨0, 60, 1⟩, ⟨30, 90, 2⟩] 5).Feasible
      ⟨fun i => 5 / 2 * i, fun _ => 5 / 2⟩ := by decide +kernel
  have bands : roundBands 5 ⟨fun i => 5 / 2 * i, fun _ => 5 / 2⟩ [⟨0, 60, 1⟩, ⟨30, 90, 2⟩] =
      [⟨⟨0, 60, 1⟩, 0, 2⟩, ⟨⟨30, 90, 2⟩, 3, 4⟩] := by decide +kernel
  obtain ⟨-, -, apart⟩ := roundBands_of_feasible _ 5 _ feasible
  refine ⟨feasible, bands, apart 0 1 _ _ Nat.zero_lt_one ?_ ?_ (by decide)⟩
  · rw [bands]
    rfl
  · rw [bands]
    rfl

end CalendarDial.Bands
