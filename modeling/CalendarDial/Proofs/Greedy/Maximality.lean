import CalendarDial.Proofs.Greedy.Board

/-!
# Greedy bands cannot grow

No band of the greedy layout could be larger by a level on either side. The levels below a band are
all covered by events that were placed before and overlap it, for the event was put into the first
hole. Above its band lies the end of the layout or a level that is covered by an event that overlaps
it. Widening keeps it so: an event that has reached the old top is widened when a new level is
opened, unless it overlaps the event for which the level was opened, and that event is then what
stops it.
-/

namespace CalendarDial.Greedy

/-- What is covered by some of the placed events is covered by all of them. The band that covers it
is among them. -/
theorem Covered.mono {placed others : List LeveledEvent} {event : ClippedEvent} {level : Nat}
    (covered : Covered placed event level) (among : placed ⊆ others) :
    Covered others event level := by
  obtain ⟨previous, present, covers⟩ := covered
  exact ⟨previous, among present, covers⟩

/-- What is covered before widening is covered after it. The band that covers the level keeps its
event and its lower end, and its upper end does not go down. -/
theorem Covered.widen {placed : List LeveledEvent} {event : ClippedEvent} {level : Nat}
    (covered : Covered placed event level) (top : Nat) (newcomer : ClippedEvent) :
    Covered (placed.map (Greedy.widen top newcomer)) event level := by
  obtain ⟨previous, present, overlap, lower, upper⟩ := covered
  refine ⟨_, List.mem_map_of_mem present, ?_, ?_, ?_⟩
  · rwa [widen_overlaps_iff]
  · rwa [minLevel_widen]
  · rcases maxLevel_widen top newcomer previous with same | ⟨reached, -, raised⟩ <;> omega

/-- Every level below a band is covered by an event that stands earlier and overlaps it. -/
def Grounded (placed : List LeveledEvent) : Prop :=
  ∀ earlier band later, placed = earlier ++ band :: later →
    ∀ level < band.minLevel, Covered earlier band.event level

/-- Every band ends at the top or below a level that is covered by an event that overlaps it. -/
def Stopped (placed : List LeveledEvent) (top : Nat) : Prop :=
  ∀ band ∈ placed, band.maxLevel = top ∨ Covered placed band.event (band.maxLevel + 1)

/-- An event all of whose lower levels are covered can be added. The event in question is the added
one just when nothing stands behind it, and then the covering bands are all those that were there.
Otherwise the added one stands behind, and the same split exists without it. -/
theorem Grounded.append {placed : List LeveledEvent} (grounded : Grounded placed)
    (band : LeveledEvent) (below : ∀ level < band.minLevel, Covered placed band.event level) :
    Grounded (placed ++ [band]) := by
  intro earlier other later split
  rcases List.eq_nil_or_concat later with rfl | ⟨between, last, rfl⟩
  · obtain ⟨rfl, same⟩ := List.append_inj' split rfl
    obtain rfl := List.singleton_inj.mp same
    exact below
  · rw [List.concat_eq_append, ← List.cons_append, ← List.append_assoc] at split
    exact grounded earlier other between (List.append_inj' split rfl).1

/-- Widening moves no lower end and takes no level away. A split of the widened list is the image of
a split of the list before, so the levels below the band were covered by the bands in front of it,
and they still are. -/
theorem Grounded.widen {placed : List LeveledEvent} (grounded : Grounded placed) (top : Nat)
    (newcomer : ClippedEvent) : Grounded (placed.map (Greedy.widen top newcomer)) := by
  intro earlier band later split level lower
  obtain ⟨before, rest, rfl, rfl, continued⟩ := List.map_eq_append_iff.mp split
  obtain ⟨previous, after, rfl, rfl, rfl⟩ := List.map_eq_cons_iff.mp continued
  rw [minLevel_widen] at lower
  rw [event_widen]
  exact (grounded before previous after rfl level lower).widen top newcomer

/-- An event that is stopped itself can be added. What stopped the others still does, because
covering by some of the events is covering by more of them. -/
theorem Stopped.append {placed : List LeveledEvent} {top : Nat} (stopped : Stopped placed top)
    (band : LeveledEvent)
    (above : band.maxLevel = top ∨ Covered placed band.event (band.maxLevel + 1)) :
    Stopped (placed ++ [band]) top := by
  have more (other : LeveledEvent)
      (fixed : other.maxLevel = top ∨ Covered placed other.event (other.maxLevel + 1)) :
      other.maxLevel = top ∨ Covered (placed ++ [band]) other.event (other.maxLevel + 1) :=
    fixed.imp_right fun covered => covered.mono (List.subset_append_left _ _)
  exact List.forall_mem_append.mpr
    ⟨fun other present => more other (stopped other present), List.forall_mem_singleton.mpr
      (more band above)⟩

/-- Opening a new level for an event leaves every band stopped. One that had reached the old top is
widened onto the new level and ends at the top again, or it overlaps the event that takes the new
level, which now covers the level above it. One that had not reached it is stopped by what stopped
it before. -/
theorem Stopped.raise {placed : List LeveledEvent} {top : Nat} (stopped : Stopped placed top)
    (event : ClippedEvent) :
    Stopped (placed.map (Greedy.widen top event) ++ [⟨event, top + 1, top + 1⟩]) (top + 1) := by
  refine List.forall_mem_append.mpr ⟨?_, List.forall_mem_singleton.mpr (.inl rfl)⟩
  rintro _ listed
  obtain ⟨band, present, rfl⟩ := List.mem_map.mp listed
  rcases maxLevel_widen top event band with same | ⟨-, -, raised⟩
  · right
    rw [same, event_widen]
    by_cases reached : band.maxLevel = top
    · have overlap : Overlaps band event := by
        apply Decidable.byContradiction
        intro apart
        rw [widen, if_pos ⟨reached, apart⟩] at same
        exact absurd same (by simp only [reached]; omega)
      rw [reached]
      exact ⟨⟨event, top + 1, top + 1⟩, List.mem_append_right _ (List.mem_singleton_self _),
        overlaps_comm.mp overlap, Nat.le_refl _, Nat.le_refl _⟩
    · have covered := (stopped band present).resolve_left reached
      exact (covered.widen top event).mono (List.subset_append_left _ _)
  · exact .inl raised

/-- No band could be larger by a level on either side. -/
structure Board.Maximal (board : Board) : Prop where
  grounded : Grounded board.placed
  stopped : Stopped board.placed board.top

/-- Each of the three things that placing an event can do keeps bands from being able to grow. The
first event takes the whole board. A hole starts at the first free level, so the levels below it are
covered, and it ends at the top or below a covered level. An event on a new level has only covered
levels below it, and it ends at the top. -/
theorem Board.maximal_of_placed (events : List ClippedEvent) (board next : Board)
    (event : ClippedEvent) (sound : Sound events board) (maximal : board.Maximal)
    (placed : board.Placed event next) : next.Maximal := by
  obtain ⟨grounded, stopped⟩ := maximal
  cases placed with
  | opened empty =>
    have lowest : board.top = 0 := sound.top_eq_zero empty
    rw [empty] at grounded stopped
    exact ⟨grounded.append ⟨event, 0, 0⟩ nofun, stopped.append ⟨event, 0, 0⟩ (.inl lowest.symm)⟩
  | filled lo hi hole =>
    exact ⟨grounded.append ⟨event, lo, hi⟩ hole.below, stopped.append ⟨event, lo, hi⟩ hole.full⟩
  | raised some covered =>
    refine ⟨(grounded.widen board.top event).append _ fun level lower => ?_, stopped.raise event⟩
    exact (covered level (Nat.le_of_lt_succ lower)).widen board.top event

/-- No band on a board that placing events leads to could be larger. It is so of the board without
events, and every placement on a sound board keeps it. -/
theorem Board.maximal_board (events : List ClippedEvent) : (Greedy.board events).Maximal := by
  have grounded : Grounded Board.empty.placed := by
    intro earlier band later split
    simp [Board.empty] at split
  exact induction_sound Board.Maximal ⟨grounded, nofun⟩ maximal_of_placed events

/-- The greedy layout of any events. Every level below the band of an event lies in the band of an
event that was placed before it and overlaps it. The band reaches the highest level of the layout,
or the level above it lies in the band of an event that overlaps it. There are fewer levels above
zero than events, so that counting them cannot overflow where the number of events does not.
Grounded and stopped bands are what every placement keeps; the last part is the bound on the top of
a sound board. -/
theorem layout_maximal (events : List ClippedEvent) :
    (∀ earlier band later, (layout events).events = earlier ++ band :: later →
      ∀ level < band.minLevel, ∃ previous ∈ earlier,
        Overlaps previous band ∧ previous.Covers level) ∧
    (∀ band ∈ (layout events).events, band.maxLevel = (layout events).maxLevel ∨
      ∃ other ∈ (layout events).events,
        Overlaps other band ∧ other.Covers (band.maxLevel + 1)) ∧
    (layout events).maxLevel < max 1 events.length := by
  obtain ⟨grounded, stopped⟩ := Board.maximal_board events
  exact ⟨grounded, stopped, maxLevel_layout_lt events⟩

/-- Five events. The fourth overlaps none and is widened twice. The last one is put above the third,
which is in its way on level one, as the second is on level zero. -/
theorem layout_maximal_of_five :
    layout [⟨0, 60, 1⟩, ⟨100, 200, 2⟩, ⟨50, 150, 3⟩, ⟨300, 400, 4⟩, ⟨120, 130, 5⟩] =
      ⟨[⟨⟨0, 60, 1⟩, 0, 0⟩, ⟨⟨100, 200, 2⟩, 0, 0⟩, ⟨⟨50, 150, 3⟩, 1, 1⟩, ⟨⟨300, 400, 4⟩, 0, 2⟩,
        ⟨⟨120, 130, 5⟩, 2, 2⟩], 2⟩ ∧
    (∀ level < 2, ∃ previous ∈ ([⟨⟨0, 60, 1⟩, 0, 0⟩, ⟨⟨100, 200, 2⟩, 0, 0⟩,
      ⟨⟨50, 150, 3⟩, 1, 1⟩, ⟨⟨300, 400, 4⟩, 0, 2⟩] : List LeveledEvent),
        Overlaps previous (⟨120, 130, 5⟩ : ClippedEvent) ∧ previous.Covers level) ∧
    ∃ other ∈ ([⟨⟨0, 60, 1⟩, 0, 0⟩, ⟨⟨100, 200, 2⟩, 0, 0⟩, ⟨⟨50, 150, 3⟩, 1, 1⟩,
      ⟨⟨300, 400, 4⟩, 0, 2⟩, ⟨⟨120, 130, 5⟩, 2, 2⟩] : List LeveledEvent),
        Overlaps other (⟨0, 60, 1⟩ : ClippedEvent) ∧ other.Covers 1 := by
  have made : layout [⟨0, 60, 1⟩, ⟨100, 200, 2⟩, ⟨50, 150, 3⟩, ⟨300, 400, 4⟩, ⟨120, 130, 5⟩] =
      ⟨[⟨⟨0, 60, 1⟩, 0, 0⟩, ⟨⟨100, 200, 2⟩, 0, 0⟩, ⟨⟨50, 150, 3⟩, 1, 1⟩, ⟨⟨300, 400, 4⟩, 0, 2⟩,
        ⟨⟨120, 130, 5⟩, 2, 2⟩], 2⟩ := by decide
  obtain ⟨below, above, -⟩ :=
    layout_maximal [⟨0, 60, 1⟩, ⟨100, 200, 2⟩, ⟨50, 150, 3⟩, ⟨300, 400, 4⟩, ⟨120, 130, 5⟩]
  rw [made] at below above
  exact ⟨made, below _ ⟨⟨120, 130, 5⟩, 2, 2⟩ [] rfl,
    (above ⟨⟨0, 60, 1⟩, 0, 0⟩ List.mem_cons_self).resolve_left (by decide)⟩

end CalendarDial.Greedy
