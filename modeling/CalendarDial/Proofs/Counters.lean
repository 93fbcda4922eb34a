import CalendarDial.Proofs.Greedy.Bounds
import CalendarDial.Proofs.Outcome

/-!
# Nothing that is counted is too large

Levels, positions and marks are counted in 32 bits while events are laid out. If the number of
events and the end of the axis fit, then so does everything else, whatever the events and whatever
the solver answers: a coordinate is cut to the axis before it becomes a level.
-/

namespace CalendarDial

open Linear (Solver)

/-- The levels of a band are cut to the axis. Its start and its end are cut when they become levels;
the end is then lowered by one, or raised to the start, and neither leads beyond the axis. -/
theorem Bands.levels_of_mem_roundBands (axis : Nat) (x : Point) (events : List ClippedEvent)
    (band : LeveledEvent) (present : band ∈ roundBands axis x events) :
    band.minLevel ≤ axis ∧ band.maxLevel ≤ axis := by
  obtain ⟨i, bound, rfl⟩ := List.mem_mapIdx.mp present
  have first := toLevel_le_axis axis (x.start i)
  have last := toLevel_le_axis axis (x.start i + x.size i)
  simp only [levelsOf]
  omega

/-- No level of the layout is above the given one. -/
def Layout.Within (top : Nat) (layout : Layout) : Prop :=
  layout.maxLevel ≤ top ∧ ∀ band ∈ layout.events, band.minLevel ≤ top ∧ band.maxLevel ≤ top

/-- The levels of a greedy layout are below the number of events. The bands of a valid layout end at
its highest level or below it. -/
theorem Greedy.layout_within (events : List ClippedEvent) (top : Nat) (few : events.length ≤ top) :
    (layout events).Within top := by
  have highest := maxLevel_layout_lt events
  have valid := layout_valid events
  refine ⟨by omega, fun band present => ?_⟩
  have ordered := valid.ordered band present
  have bounded := valid.bounded band present
  omega

/-- The levels of an even layout lie on the axis, whatever the solver. Rounding cuts whatever values
the solver reports to the axis. -/
theorem Bands.layoutWith_within (solver : Solver) (axis : Nat) (events : List ClippedEvent)
    (layout : Layout) (made : layoutWith solver axis events = .ok layout) :
    layout.Within axis := by
  obtain ⟨x, -, rfl⟩ := (layoutWith_eq_ok_iff solver axis events layout).mp made
  exact ⟨Nat.le_refl axis, levels_of_mem_roundBands axis x events⟩

/-- Whatever the solver, no level of a layout is above both the number of events and the end of the
axis. The greedy layout is bounded by the number of events, the even layout by the axis, and the
empty one has no levels to bound. -/
theorem computeLayoutWith_within (solver : Solver) (settings : LayoutSettings)
    (events : List ClippedEvent) :
    (computeLayoutWith solver settings events).layout.Within
      (max events.length settings.maxLevel) := by
  have empty : Layout.empty.Within (max events.length settings.maxLevel) := ⟨Nat.zero_le _, nofun⟩
  have greedy := Greedy.layout_within events (max events.length settings.maxLevel)
    (Nat.le_max_left _ _)
  obtain ⟨⟨origin, comes⟩, -⟩ := LayoutOutcome.exists_comesFrom solver settings events
  cases origin with
  | greedyChosen =>
    rw [comes.2.2.2]
    exact greedy
  | evenChosen =>
    obtain ⟨-, -, -, ⟨-, none⟩ | ⟨-, made⟩⟩ := comes
    · rw [none]
      exact empty
    · obtain ⟨highest, levels⟩ := Bands.layoutWith_within solver settings.maxLevel events _ made
      refine ⟨highest.trans (Nat.le_max_right _ _), fun band present => ?_⟩
      have within := levels band present
      omega
  | evenFailed =>
    obtain ⟨-, -, -, -, ⟨-, -, same⟩ | ⟨-, -, none⟩⟩ := comes
    · rw [same, LayoutOutcome.layout_of_greedyChosen solver { settings with primary := .greedy }
        events rfl]
      exact greedy
    · rw [none]
      exact empty

/-- What is counted while events are laid out stays within its limits: placing any of them greedily
does, the pairs of the even layout are pairs of positions, and all levels of the outcome fit into 32
bits. -/
structure CountersFit (settings : LayoutSettings) (events : List ClippedEvent)
    (outcome : LayoutOutcome) : Prop where
  placing : ∀ earlier event later, events = earlier ++ event :: later →
    (Greedy.board earlier).InBounds event
  pairs : ∀ i j, (i, j) ∈ (Bands.Program.ofEvents events settings.maxLevel).pairs →
    i < events.length ∧ j < events.length
  levels : ∀ band ∈ outcome.layout.events, band.minLevel < 2 ^ 32 ∧ band.maxLevel < 2 ^ 32
  highest : outcome.layout.maxLevel < 2 ^ 32

/-- If the number of events and the end of the axis fit into 32 bits, everything that is counted
stays within its limits. Greedy boards stay in bounds because the events are few, pairs because they
are pairs of positions, and levels because they are at most the greater of the two numbers. -/
theorem countersFit (solver : Solver) (settings : LayoutSettings) (events : List ClippedEvent)
    (few : events.length < 2 ^ 32) (low : settings.maxLevel < 2 ^ 32) :
    CountersFit settings events (computeLayoutWith solver settings events) := by
  obtain ⟨highest, levels⟩ := computeLayoutWith_within solver settings events
  refine ⟨?_, fun i j paired => ?_, fun band present => ?_, by omega⟩
  · rintro earlier event later rfl
    exact Greedy.Board.inBounds_board earlier event later few
  · obtain ⟨ordered, last⟩ := Bands.Program.inRange_ofEvents events settings.maxLevel i j paired
    exact ⟨Nat.lt_trans ordered last, last⟩
  · have within := levels band present
    omega

end CalendarDial
