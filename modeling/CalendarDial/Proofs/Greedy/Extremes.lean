import Mathlib.Data.List.Induction
import CalendarDial.Proofs.Greedy.Maximality
import CalendarDial.Proofs.Greedy.Occupancy

/-!
# The fewest and the most levels

One level is enough exactly for events of which no two overlap. As many levels as events are needed
exactly for events of which every two overlap; they are then piled up, each on the level of its own
position. A single pair that does not overlap saves a level wherever it stands in the list, for the
later event of the first such pair fills a hole, and from then on levels stay behind events.
-/

namespace CalendarDial.Greedy

/-- One level is enough exactly when no two events overlap. Two bands of a valid layout with a
single level share it, so their events cannot overlap. With several levels some event starts on the
highest one; level zero below it is covered by an earlier event that overlaps it. -/
theorem maxLevel_eq_zero_iff (events : List ClippedEvent) :
    (layout events).maxLevel = 0 ↔ events.Pairwise fun a b => ¬ Overlaps a b := by
  have kept := map_event_layout events
  constructor
  · intro single
    obtain ⟨ordered, bounded, apart⟩ := layout_valid events
    rw [← kept, List.pairwise_map]
    refine apart.imp_of_mem ?_
    intro a b first second apart overlap
    have boundedFirst := bounded a first
    have boundedSecond := bounded b second
    have orderedFirst := ordered a first
    have orderedSecond := ordered b second
    exact apart overlap 0 ⟨⟨by omega, Nat.zero_le _⟩, by omega, Nat.zero_le _⟩
  · intro separate
    by_contra several
    have some : events ≠ [] := by
      rintro rfl
      exact several rfl
    obtain ⟨band, present, starts⟩ :=
      Board.occupied_board events some (layout events).maxLevel (Nat.le_refl _)
    obtain ⟨earlier, later, split⟩ := List.append_of_mem present
    obtain ⟨previous, before, overlap, -⟩ :=
      (Board.maximal_board events).grounded earlier band later split 0 (by omega)
    rw [← kept, List.pairwise_map] at separate
    have listed : (layout events).events = earlier ++ band :: later := split
    rw [listed] at separate
    exact (List.pairwise_append.mp separate).2.2 previous before band List.mem_cons_self overlap

/-- Where there is a single level, every event lies on it. A band of a valid layout lies between
zero and the highest level, which leaves no other band. -/
theorem events_of_maxLevel_eq_zero (events : List ClippedEvent)
    (single : (layout events).maxLevel = 0) :
    (layout events).events = events.map fun event => ⟨event, 0, 0⟩ := by
  obtain ⟨ordered, bounded, -⟩ := layout_valid events
  have lowest (band : LeveledEvent) (present : band ∈ (layout events).events) :
      band = ⟨band.event, 0, 0⟩ := by
    have ends : band.maxLevel = 0 := Nat.le_zero.mp (single ▸ bounded band present)
    have starts : band.minLevel = 0 := Nat.le_zero.mp (ends ▸ ordered band present)
    calc band = ⟨band.event, band.minLevel, band.maxLevel⟩ := rfl
      _ = ⟨band.event, 0, 0⟩ := by rw [starts, ends]
  calc (layout events).events
      = (layout events).events.map fun band => ⟨band.event, 0, 0⟩ :=
        (List.map_id _).symm.trans (List.map_congr_left lowest)
    _ = ((layout events).events.map LeveledEvent.event).map fun event => ⟨event, 0, 0⟩ :=
        by rw [List.map_map, Function.comp_def]
    _ = events.map fun event => ⟨event, 0, 0⟩ := by rw [map_event_layout]

namespace Board

/-- Events piled up in order, each on a level of its own. -/
def pile (events : List ClippedEvent) : Board :=
  ⟨events.mapIdx fun i event => ⟨event, i, i⟩, events.length - 1⟩

/-- In a pile a level is covered by the event at that position, if it overlaps the newcomer. Each
band of a pile is a single level, which is the position of its event. -/
theorem covered_pile_iff (events : List ClippedEvent) (newcomer : ClippedEvent) (level : Nat) :
    Covered (pile events).placed newcomer level ↔
      ∃ event, events[level]? = some event ∧ Overlaps event newcomer := by
  constructor
  · rintro ⟨previous, present, overlap, lower, upper⟩
    obtain ⟨i, bound, rfl⟩ := List.mem_mapIdx.mp present
    obtain rfl : i = level := Nat.le_antisymm lower upper
    exact ⟨events[i], List.getElem?_eq_getElem bound, overlap⟩
  · rintro ⟨event, found, overlap⟩
    obtain ⟨bound, rfl⟩ := List.getElem?_eq_some_iff.mp found
    exact ⟨⟨events[level], level, level⟩, List.mem_mapIdx.mpr ⟨level, bound, rfl⟩, overlap,
      Nat.le_refl _, Nat.le_refl _⟩

/-- A newcomer that finds no free level in a pile overlaps all its events. Every position is a level
up to the top, and only the event at that position can cover it. -/
theorem overlaps_of_covered_pile (events : List ClippedEvent) (newcomer : ClippedEvent)
    (covered : ∀ level ≤ (pile events).top, Covered (pile events).placed newcomer level) :
    ∀ event ∈ events, Overlaps event newcomer := by
  intro event present
  obtain ⟨i, bound, rfl⟩ := List.mem_iff_getElem.mp present
  obtain ⟨event, found, overlap⟩ :=
    (covered_pile_iff events newcomer i).mp (covered i (Nat.le_sub_one_of_lt bound))
  rw [List.getElem?_eq_getElem bound] at found
  exact Option.some.inj found ▸ overlap

/-- A newcomer that overlaps all events of a pile is put on top of it, and nothing is widened. It
cannot fill a hole, because every level up to the top is covered by an event that it overlaps. So a
new level is opened, and only events that do not overlap the newcomer would be widened onto it. -/
theorem place_pile (events : List ClippedEvent) (newcomer : ClippedEvent)
    (overlaps : ∀ event ∈ events, Overlaps event newcomer) :
    (pile events).place newcomer = pile (events ++ [newcomer]) := by
  by_cases none : events = []
  · subst none
    rfl
  have size : 0 < events.length := List.length_pos_iff.mpr none
  have placed := (pile events).placed_place newcomer
  generalize (pile events).place newcomer = next at placed ⊢
  cases placed with
  | opened empty => exact absurd (List.mapIdx_eq_nil_iff.mp empty) none
  | filled lo hi hole =>
    have within : hi ≤ events.length - 1 := hole.within
    have bound : lo < events.length := by
      have ordered := hole.ordered
      omega
    have covered := (covered_pile_iff events newcomer lo).mpr
      ⟨events[lo], List.getElem?_eq_getElem bound, overlaps _ (List.getElem_mem bound)⟩
    exact absurd covered (hole.free lo (Nat.le_refl _) hole.ordered)
  | raised some covered =>
    have unchanged : (pile events).placed.map (widen (pile events).top newcomer) =
        (pile events).placed := by
      refine (List.map_congr_left fun band present => ?_).trans (List.map_id _)
      obtain ⟨i, bound, rfl⟩ := List.mem_mapIdx.mp present
      exact widen_of_overlaps _ _ _ (overlaps _ (List.getElem_mem bound))
    have next : (pile events).top + 1 = events.length := Nat.sub_add_cancel size
    rw [unchanged, next, pile, pile, List.mapIdx_concat, List.length_append]
    rfl

/-- Events of which every two overlap are piled up. By induction on the number of events, the last
of which overlaps all the others. -/
theorem board_eq_pile (events : List ClippedEvent)
    (overlaps : events.Pairwise fun a b => Overlaps a b) : Greedy.board events = pile events := by
  induction events using List.reverseRecOn with
  | nil => rfl
  | append_singleton events newcomer inductionHypothesis =>
    obtain ⟨among, -, last⟩ := List.pairwise_append.mp overlaps
    rw [board_concat, inductionHypothesis among]
    exact place_pile events newcomer fun event present =>
      last event present newcomer (List.mem_singleton_self _)

/-- Where every event has needed a level of its own, every two events overlap. The last event did
not fill a hole, so that all levels below it were covered, and by induction each of them was covered
by a single event. -/
theorem pairwise_of_top (events : List ClippedEvent)
    (full : (Greedy.board events).top + 1 = events.length) :
    events.Pairwise fun a b => Overlaps a b := by
  induction events using List.reverseRecOn with
  | nil => exact List.Pairwise.nil
  | append_singleton events newcomer inductionHypothesis =>
    by_cases none : events = []
    · subst none
      exact List.pairwise_singleton _ _
    have size : 0 < events.length := List.length_pos_iff.mpr none
    have few : (Greedy.board events).top < events.length := by
      have filled := maxLevel_layout_lt events
      rwa [Nat.max_eq_right size] at filled
    have placed := (Greedy.board events).placed_place newcomer
    rw [board_concat, List.length_append, List.length_singleton] at full
    have level : ((Greedy.board events).place newcomer).top = events.length := Nat.succ.inj full
    generalize (Greedy.board events).place newcomer = next at placed level
    cases placed with
    | opened empty => exact absurd level (Nat.ne_of_lt few)
    | filled lo hi hole => exact absurd level (Nat.ne_of_lt few)
    | raised some covered =>
      have among := inductionHypothesis level
      rw [board_eq_pile events among] at covered
      have overlaps := overlaps_of_covered_pile events newcomer covered
      refine List.pairwise_append.mpr ⟨among, List.pairwise_singleton _ _, ?_⟩
      intro event present other last
      exact List.mem_singleton.mp last ▸ overlaps event present

end Board

/-- There are as many levels as events exactly when every two events overlap. In one direction the
board of such events is a pile; in the other no event can have filled a hole, or levels would have
stayed behind events. -/
theorem maxLevel_eq_pred_iff (events : List ClippedEvent) (some : events ≠ []) :
    (layout events).maxLevel = events.length - 1 ↔ events.Pairwise fun a b => Overlaps a b := by
  have size : 0 < events.length := List.length_pos_iff.mpr some
  constructor
  · intro most
    have level : (board events).top = events.length - 1 := most
    exact Board.pairwise_of_top events (by omega)
  · intro pairs
    rw [layout, Board.board_eq_pile events pairs]
    rfl

/-- The greedy layout of at least one event has the single level zero exactly when no two events
overlap, and then every event lies on it. It has as many levels as events exactly when every two
events overlap, and then every event lies on the level of its own position. A valid layout with one
level has every event on it, and the board of events that all overlap is a pile. -/
theorem layout_extremes (events : List ClippedEvent) (some : events ≠ []) :
    ((layout events).maxLevel = 0 ↔ events.Pairwise fun a b => ¬ Overlaps a b) ∧
    ((layout events).maxLevel = 0 →
      (layout events).events = events.map fun event => ⟨event, 0, 0⟩) ∧
    ((layout events).maxLevel = events.length - 1 ↔ events.Pairwise fun a b => Overlaps a b) ∧
    ((layout events).maxLevel = events.length - 1 →
      (layout events).events = events.mapIdx fun i event => ⟨event, i, i⟩) := by
  have crowded := maxLevel_eq_pred_iff events some
  refine ⟨maxLevel_eq_zero_iff events, events_of_maxLevel_eq_zero events, crowded, fun most => ?_⟩
  rw [layout, Board.board_eq_pile events (crowded.mp most)]
  rfl

/-- Three events of which every two overlap are piled up, and three that only touch share level
zero. -/
theorem layout_extremes_of_three :
    ((layout [⟨0, 60, 1⟩, ⟨10, 70, 2⟩, ⟨20, 80, 3⟩]).maxLevel = 2 ∧
      (layout [⟨0, 60, 1⟩, ⟨10, 70, 2⟩, ⟨20, 80, 3⟩]).events =
        [⟨⟨0, 60, 1⟩, 0, 0⟩, ⟨⟨10, 70, 2⟩, 1, 1⟩, ⟨⟨20, 80, 3⟩, 2, 2⟩]) ∧
    (layout [⟨0, 30, 1⟩, ⟨60, 90, 2⟩, ⟨30, 60, 3⟩]).maxLevel = 0 ∧
      (layout [⟨0, 30, 1⟩, ⟨60, 90, 2⟩, ⟨30, 60, 3⟩]).events =
        [⟨⟨0, 30, 1⟩, 0, 0⟩, ⟨⟨60, 90, 2⟩, 0, 0⟩, ⟨⟨30, 60, 3⟩, 0, 0⟩] := by
  obtain ⟨-, -, most, piled⟩ :=
    layout_extremes [⟨0, 60, 1⟩, ⟨10, 70, 2⟩, ⟨20, 80, 3⟩] (by decide)
  obtain ⟨fewest, level, -, -⟩ :=
    layout_extremes [⟨0, 30, 1⟩, ⟨60, 90, 2⟩, ⟨30, 60, 3⟩] (by decide)
  have crowded := most.mpr (by decide)
  have single := fewest.mpr (by decide)
  exact ⟨⟨crowded, piled crowded⟩, single, level single⟩

end CalendarDial.Greedy
