import CalendarDial.Proofs.Greedy.Board

/-!
# No level is left empty

The first event takes level zero, and every other level is opened for an event that is put on it
alone. Nothing that is placed later moves the lower end of a band. So each level up to the top is
the lowest level of some event, however far bands have been widened in the meantime, and there
cannot be more levels than events.
-/

namespace CalendarDial.Greedy

namespace Board

/-- Every level up to the top is the lowest level of a band on the board. -/
def Occupied (board : Board) : Prop :=
  ∀ level ≤ board.top, ∃ band ∈ board.placed, band.minLevel = level

/-- Each of the three things that placing an event can do leaves no level empty, if none was empty
before or the event is the first one. The only level of an opened board is the event's own, and a
hole that the first event fills is that level too. Later events add nothing below the top unless
they open a level, on which they then start themselves. Widening moves no lower end. -/
theorem occupied_of_placed (events : List ClippedEvent) (board next : Board) (event : ClippedEvent)
    (sound : Sound events board) (occupied : board.placed ≠ [] → board.Occupied)
    (placed : board.Placed event next) : next.Occupied := by
  intro level within
  cases placed with
  | opened empty =>
    have zero : level = 0 := Nat.le_zero.mp (sound.top_eq_zero empty ▸ within)
    exact ⟨⟨event, 0, 0⟩, List.mem_singleton_self _, zero.symm⟩
  | filled lo hi hole =>
    by_cases empty : board.placed = []
    · have lowest := sound.top_eq_zero empty
      have zero : level = 0 := Nat.le_zero.mp (lowest ▸ within)
      have start : lo = 0 := Nat.le_zero.mp (lowest ▸ Nat.le_trans hole.ordered hole.within)
      exact ⟨⟨event, lo, hi⟩, List.mem_append_right _ (List.mem_singleton_self _),
        start.trans zero.symm⟩
    · obtain ⟨band, present, starts⟩ := occupied empty level within
      exact ⟨band, List.mem_append_left _ present, starts⟩
  | raised some covered =>
    rcases Nat.lt_or_eq_of_le within with lower | newest
    · obtain ⟨band, present, starts⟩ := occupied some level (Nat.le_of_lt_succ lower)
      refine ⟨widen board.top event band,
        List.mem_append_left _ (List.mem_map_of_mem present), ?_⟩
      rw [minLevel_widen, starts]
    · exact ⟨⟨event, board.top + 1, board.top + 1⟩,
        List.mem_append_right _ (List.mem_singleton_self _), newest.symm⟩

/-- No level is left empty on a board that placing some events leads to. The empty board has an
unoccupied level zero, so what is carried through the placements is that no level is empty once
anything has been placed. After some events something has, because a sound board holds them all. -/
theorem occupied_board (events : List ClippedEvent) (some : events ≠ []) :
    (Greedy.board events).Occupied := by
  have occupied : (Greedy.board events).placed ≠ [] → (Greedy.board events).Occupied :=
    induction_sound (fun board => board.placed ≠ [] → board.Occupied)
      (fun nonempty => absurd rfl nonempty)
      (fun events board next event sound occupied placed _ =>
        occupied_of_placed events board next event sound occupied placed) events
  apply occupied
  intro empty
  have kept := (sound_board events).kept
  rw [empty, List.map_nil] at kept
  exact some kept.symm

end Board

/-- The greedy layout of at least one event. Every level up to the highest is the lowest level of
some event, which therefore covers it. The band of some event ends at the highest level, and there
are no more levels than events. The levels are those of an occupied board. The band that starts at
the highest one ends there as well, since a valid band is the right way up and goes no higher. -/
theorem layout_occupied (events : List ClippedEvent) (some : events ≠ []) :
    (∀ level ≤ (layout events).maxLevel, ∃ band ∈ (layout events).events,
      band.minLevel = level ∧ band.Covers level) ∧
    (∃ band ∈ (layout events).events, band.maxLevel = (layout events).maxLevel) ∧
    (layout events).maxLevel ≤ events.length - 1 := by
  have valid := layout_valid events
  have starting (level : Nat) (within : level ≤ (layout events).maxLevel) :
      ∃ band ∈ (layout events).events, band.minLevel = level ∧ band.Covers level := by
    obtain ⟨band, present, rfl⟩ := Board.occupied_board events some level within
    exact ⟨band, present, rfl, Nat.le_refl _, valid.ordered band present⟩
  refine ⟨starting, ?_, ?_⟩
  · obtain ⟨band, present, starts, -, ends⟩ := starting _ (Nat.le_refl _)
    exact ⟨band, present, Nat.le_antisymm (valid.bounded band present) ends⟩
  · have size : 0 < events.length := List.length_pos_iff.mpr some
    have few := maxLevel_layout_lt events
    omega

/-- Five events on the levels from zero to two. Each level is the lowest of an event, although the
fourth event has been widened over all three. -/
theorem layout_occupied_of_five :
    layout [⟨0, 60, 1⟩, ⟨100, 200, 2⟩, ⟨50, 150, 3⟩, ⟨300, 400, 4⟩, ⟨120, 130, 5⟩] =
      ⟨[⟨⟨0, 60, 1⟩, 0, 0⟩, ⟨⟨100, 200, 2⟩, 0, 0⟩, ⟨⟨50, 150, 3⟩, 1, 1⟩, ⟨⟨300, 400, 4⟩, 0, 2⟩,
        ⟨⟨120, 130, 5⟩, 2, 2⟩], 2⟩ ∧
    ∀ level ≤ 2, ∃ band ∈ ([⟨⟨0, 60, 1⟩, 0, 0⟩, ⟨⟨100, 200, 2⟩, 0, 0⟩, ⟨⟨50, 150, 3⟩, 1, 1⟩,
      ⟨⟨300, 400, 4⟩, 0, 2⟩, ⟨⟨120, 130, 5⟩, 2, 2⟩] : List LeveledEvent),
        band.minLevel = level ∧ band.Covers level := by
  have made : layout [⟨0, 60, 1⟩, ⟨100, 200, 2⟩, ⟨50, 150, 3⟩, ⟨300, 400, 4⟩, ⟨120, 130, 5⟩] =
      ⟨[⟨⟨0, 60, 1⟩, 0, 0⟩, ⟨⟨100, 200, 2⟩, 0, 0⟩, ⟨⟨50, 150, 3⟩, 1, 1⟩, ⟨⟨300, 400, 4⟩, 0, 2⟩,
        ⟨⟨120, 130, 5⟩, 2, 2⟩], 2⟩ := by decide
  obtain ⟨starting, -, -⟩ := layout_occupied
    [⟨0, 60, 1⟩, ⟨100, 200, 2⟩, ⟨50, 150, 3⟩, ⟨300, 400, 4⟩, ⟨120, 130, 5⟩] (by decide)
  rw [made] at starting
  exact ⟨made, starting⟩

end CalendarDial.Greedy
