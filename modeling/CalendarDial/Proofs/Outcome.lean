import Mathlib.Logic.ExistsUnique
import CalendarDial.Outcome
import CalendarDial.Proofs.Bands.Separation
import CalendarDial.Proofs.Bands.Solving
import CalendarDial.Proofs.Greedy.Board

/-!
# Whatever comes out is valid

Both engines make valid layouts, so the check finds nothing, whatever the events, the settings and
the solver. All that is asked of the solver is that the values it reports satisfy the constraints
that it has accepted. It may refuse what it likes, and fail in any way.
-/

namespace CalendarDial

open Linear (Solver)

/-- The ways in which an outcome can come about. -/
inductive Origin where
  | greedyChosen
  | evenChosen
  | evenFailed
deriving DecidableEq

namespace LayoutOutcome

/-- What an outcome looks like that has come about in the given way. If the greedy layout is chosen,
it is what is shown. If the even layout is chosen, it is shown when there is one, and nothing when
there are no events. If it fails, the policy decides between the greedy layout, just as if that had
been chosen, and the empty one. -/
def ComesFrom (solver : Solver) (settings : LayoutSettings) (events : List ClippedEvent)
    (outcome : LayoutOutcome) : Origin → Prop
  | .greedyChosen =>
    settings.primary = .greedy ∧ outcome.engine = .greedy ∧ outcome.fellBack = false ∧
      outcome.layout = Greedy.layout events
  | .evenChosen =>
    settings.primary = .constraint ∧ outcome.engine = .constraint ∧ outcome.fellBack = false ∧
      (events = [] ∧ outcome.layout = Layout.empty ∨
        events ≠ [] ∧ Bands.layoutWith solver settings.maxLevel events = .ok outcome.layout)
  | .evenFailed =>
    settings.primary = .constraint ∧ events ≠ [] ∧ outcome.fellBack = true ∧
      (∃ failure, Bands.layoutWith solver settings.maxLevel events = .error failure) ∧
      (settings.onSolverFailure = .greedy ∧ outcome.engine = .greedy ∧
          outcome.layout =
            (computeLayoutWith solver { settings with primary := .greedy } events).layout ∨
        settings.onSolverFailure = .empty ∧ outcome.engine = .constraint ∧
          outcome.layout = Layout.empty)

/-- An outcome comes about in one way only: the setting and the failure tell which. Each way fixes
the choice of the engine and whether it failed, and no two of them alike. -/
theorem ComesFrom.unique (solver : Solver) (settings : LayoutSettings)
    (events : List ClippedEvent) (outcome : LayoutOutcome) (first second : Origin)
    (one : outcome.ComesFrom solver settings events first)
    (other : outcome.ComesFrom solver settings events second) : first = second := by
  have told (origin : Origin) (comes : outcome.ComesFrom solver settings events origin) :
      origin = if settings.primary = .greedy then .greedyChosen
        else if outcome.fellBack then .evenFailed else .evenChosen := by
    cases origin with
    | greedyChosen => exact (if_pos comes.1).symm
    | evenChosen => simp only [comes.1, comes.2.2.1, reduceCtorEq, Bool.false_eq_true, if_false]
    | evenFailed => simp only [comes.1, comes.2.2.1, reduceCtorEq, if_false, if_true]
  exact (told first one).trans (told second other).symm

/-- The greedy layout is what is shown when it is chosen, with or without events. Without events the
greedy layout is the empty one, which is what is shown for no events. -/
theorem layout_of_greedyChosen (solver : Solver) (settings : LayoutSettings)
    (events : List ClippedEvent) (chosen : settings.primary = .greedy) :
    computeLayoutWith solver settings events =
      ⟨Greedy.layout events, .greedy, false, (Greedy.layout events).violations⟩ := by
  rw [computeLayoutWith, chosen]
  cases events with
  | nil => rfl
  | cons event events => rfl

/-- The layout of any engine that can fail is what is shown when there is one. Its violations are
looked up, and it counts as the layout of the engine that was chosen. -/
theorem ofEngine_ok (engine : List ClippedEvent → Except Bands.Failure Layout)
    (policy : FailurePolicy) (events : List ClippedEvent) (layout : Layout) (some : events ≠ [])
    (made : engine events = .ok layout) :
    ofEngine engine policy events = checked layout .constraint false := by
  have nonempty : events.isEmpty = false := List.isEmpty_eq_false_iff.mpr some
  simp [ofEngine, nonempty, made]

/-- The policy decides what is shown when the engine fails. The kind of failure plays no part in
it. -/
theorem ofEngine_error (engine : List ClippedEvent → Except Bands.Failure Layout)
    (policy : FailurePolicy) (events : List ClippedEvent) (failure : Bands.Failure)
    (some : events ≠ []) (failed : engine events = .error failure) :
    ofEngine engine policy events = ofFailure policy events := by
  have nonempty : events.isEmpty = false := List.isEmpty_eq_false_iff.mpr some
  simp [ofEngine, nonempty, failed]

/-- The even layout is what is shown when it is chosen and there is one. The even layout is one of
the engines that can fail. -/
theorem layout_of_even_ok (solver : Solver) (settings : LayoutSettings)
    (events : List ClippedEvent) (layout : Layout) (chosen : settings.primary = .constraint)
    (some : events ≠ []) (made : Bands.layoutWith solver settings.maxLevel events = .ok layout) :
    computeLayoutWith solver settings events = checked layout .constraint false := by
  rw [computeLayoutWith, chosen]
  exact ofEngine_ok _ _ events layout some made

/-- The policy decides what is shown when the even layout is chosen and fails. That is so of every
engine that can fail. -/
theorem layout_of_even_error (solver : Solver) (settings : LayoutSettings)
    (events : List ClippedEvent) (failure : Bands.Failure) (chosen : settings.primary = .constraint)
    (some : events ≠ [])
    (failed : Bands.layoutWith solver settings.maxLevel events = .error failure) :
    computeLayoutWith solver settings events = ofFailure settings.onSolverFailure events := by
  rw [computeLayoutWith, chosen]
  exact ofEngine_error _ _ events failure some failed

/-- Nothing is shown when the even layout is chosen and there are no events. The engine is not even
asked, so its solver plays no part. -/
theorem layout_of_even_nil (solver : Solver) (settings : LayoutSettings)
    (chosen : settings.primary = .constraint) :
    computeLayoutWith solver settings [] = LayoutOutcome.empty .constraint := by
  rw [computeLayoutWith, chosen]
  rfl

/-- Every outcome has come about in one of the ways, and its violations are those of its layout. The
cases are those of the program: which engine is chosen, whether there are events, whether the even
layout succeeds, and what the policy is. -/
theorem exists_comesFrom (solver : Solver) (settings : LayoutSettings)
    (events : List ClippedEvent) :
    (∃ origin,
      (computeLayoutWith solver settings events).ComesFrom solver settings events origin) ∧
      (computeLayoutWith solver settings events).violations =
        (computeLayoutWith solver settings events).layout.violations := by
  cases chosen : settings.primary with
  | greedy =>
    rw [layout_of_greedyChosen solver settings events chosen]
    exact ⟨⟨.greedyChosen, chosen, rfl, rfl, rfl⟩, rfl⟩
  | constraint =>
    by_cases none : events = []
    · subst none
      rw [layout_of_even_nil solver settings chosen]
      exact ⟨⟨.evenChosen, chosen, rfl, rfl, .inl ⟨rfl, rfl⟩⟩, rfl⟩
    · cases made : Bands.layoutWith solver settings.maxLevel events with
      | ok layout =>
        rw [layout_of_even_ok solver settings events layout chosen none made]
        exact ⟨⟨.evenChosen, chosen, rfl, rfl, .inr ⟨none, made⟩⟩, rfl⟩
      | error failure =>
        rw [layout_of_even_error solver settings events failure chosen none made]
        cases policy : settings.onSolverFailure with
        | greedy =>
          have same : Greedy.layout events =
              (computeLayoutWith solver { settings with primary := .greedy } events).layout := by
            rw [layout_of_greedyChosen solver _ events rfl]
          exact ⟨⟨.evenFailed, chosen, none, rfl, ⟨failure, made⟩, .inl ⟨policy, rfl, same⟩⟩, rfl⟩
        | empty =>
          exact ⟨⟨.evenFailed, chosen, none, rfl, ⟨failure, made⟩, .inr ⟨policy, rfl, rfl⟩⟩, rfl⟩

end LayoutOutcome

/-- The empty layout is valid. There are no bands that could be at fault. -/
theorem Layout.valid_empty : Layout.empty.Valid := ⟨nofun, nofun, List.Pairwise.nil⟩

/-- An even layout holds the events in order, whatever the solver. Rounding goes through the events
position by position and gives each its band. -/
theorem Bands.map_event_of_layoutWith_eq_ok (solver : Solver) (axis : Nat)
    (events : List ClippedEvent) (layout : Layout)
    (made : layoutWith solver axis events = .ok layout) :
    layout.events.map LeveledEvent.event = events := by
  obtain ⟨x, -, rfl⟩ := (layoutWith_eq_ok_iff solver axis events layout).mp made
  exact map_event_roundBands axis x events

/-- An even layout made with a sound solver is valid, and reports the axis as its highest level. The
values that it reports satisfy the constraints, and rounding a point that satisfies them gives bands
that keep apart where events overlap. -/
theorem Bands.spec_of_layoutWith_eq_ok (solver : Solver) (sound : solver.Sound) (axis : Nat)
    (events : List ClippedEvent) (layout : Layout)
    (made : layoutWith solver axis events = .ok layout) :
    layout.Valid ∧ layout.maxLevel = axis := by
  obtain ⟨x, solved, rfl⟩ := (layoutWith_eq_ok_iff solver axis events layout).mp made
  have feasible : (Program.ofEvents events axis).Feasible x :=
    Program.feasible_of_solveWith_eq_ok solver sound _ (Program.inRange_ofEvents events axis) x
      solved
  exact ⟨valid_roundBands events axis x feasible, rfl⟩

/-- Unless nothing is shown, the layout of an outcome holds the events in order, whatever the
solver. Both engines keep the events and their order, and the empty layout of no events does as
well. The one layout that loses events is the empty one after a failure. -/
theorem LayoutOutcome.map_event_of_comesFrom (solver : Solver) (settings : LayoutSettings)
    (events : List ClippedEvent) (outcome : LayoutOutcome) (origin : Origin)
    (comes : outcome.ComesFrom solver settings events origin)
    (shown : ¬ (outcome.fellBack = true ∧ settings.onSolverFailure = .empty)) :
    outcome.layout.events.map LeveledEvent.event = events := by
  cases origin with
  | greedyChosen =>
    rw [comes.2.2.2]
    exact Greedy.map_event_layout events
  | evenChosen =>
    obtain ⟨-, -, -, ⟨none, empty⟩ | ⟨-, made⟩⟩ := comes
    · rw [none, empty]
      rfl
    · exact Bands.map_event_of_layoutWith_eq_ok solver _ events outcome.layout made
  | evenFailed =>
    obtain ⟨-, -, fellBack, -, ⟨-, -, same⟩ | ⟨policy, -, -⟩⟩ := comes
    · rw [same, layout_of_greedyChosen solver _ events rfl]
      exact Greedy.map_event_layout events
    · exact absurd ⟨fellBack, policy⟩ shown

/-- The layout of an outcome is valid, however it has come about, and its highest level is below the
number of events or is the end of the axis. The greedy layout is valid by itself, an even layout
because the solver is sound, and the empty layout has nothing that could be at fault. -/
theorem LayoutOutcome.spec_of_comesFrom (solver : Solver) (sound : solver.Sound)
    (settings : LayoutSettings) (events : List ClippedEvent) (outcome : LayoutOutcome)
    (origin : Origin) (comes : outcome.ComesFrom solver settings events origin) :
    outcome.layout.Valid ∧ outcome.layout.maxLevel ≤ max events.length settings.maxLevel := by
  have greedy (layout : Layout) (same : layout = Greedy.layout events) :
      layout.Valid ∧ layout.maxLevel ≤ max events.length settings.maxLevel := by
    have levels := Greedy.maxLevel_layout_lt events
    rw [same]
    exact ⟨Greedy.layout_valid events, by omega⟩
  cases origin with
  | greedyChosen => exact greedy outcome.layout comes.2.2.2
  | evenChosen =>
    obtain ⟨-, -, -, ⟨none, empty⟩ | ⟨-, made⟩⟩ := comes
    · rw [empty]
      exact ⟨Layout.valid_empty, Nat.zero_le _⟩
    · obtain ⟨valid, highest⟩ :=
        Bands.spec_of_layoutWith_eq_ok solver sound settings.maxLevel events outcome.layout made
      exact ⟨valid, highest ▸ Nat.le_max_right _ _⟩
  | evenFailed =>
    obtain ⟨-, -, -, -, ⟨-, -, same⟩ | ⟨-, -, empty⟩⟩ := comes
    · rw [layout_of_greedyChosen solver _ events rfl] at same
      exact greedy outcome.layout same
    · rw [empty]
      exact ⟨Layout.valid_empty, Nat.zero_le _⟩

/-- Only what was to be laid out is on the layout. Where a layout is shown it holds exactly these
events, and where the policy is to show nothing no band is left to ask about. -/
theorem event_mem_of_mem_layout (solver : Solver) (settings : LayoutSettings)
    (events : List ClippedEvent) (band : LeveledEvent)
    (shown : band ∈ (computeLayoutWith solver settings events).layout.events) :
    band.event ∈ events := by
  obtain ⟨⟨origin, comes⟩, -⟩ := LayoutOutcome.exists_comesFrom solver settings events
  by_cases hidden : (computeLayoutWith solver settings events).fellBack = true ∧
      settings.onSolverFailure = .empty
  · obtain ⟨fellBack, policy⟩ := hidden
    cases origin with
    | greedyChosen => exact absurd (fellBack.symm.trans comes.2.2.1) (by decide)
    | evenChosen => exact absurd (fellBack.symm.trans comes.2.2.1) (by decide)
    | evenFailed =>
      obtain ⟨-, -, -, -, ⟨other, -, -⟩ | ⟨-, -, empty⟩⟩ := comes
      · exact absurd (policy.symm.trans other) (by decide)
      · rw [empty] at shown
        cases shown
  · have kept := LayoutOutcome.map_event_of_comesFrom solver settings events _ origin comes hidden
    exact kept ▸ List.mem_map_of_mem shown

/-- Whatever the events and the settings, and whatever a sound solver does, no violation is found,
and the outcome has come about in exactly one of three ways. Unless the even layout fails and the
policy is to show nothing, the layout holds the events in order, with bands that are the right way
up, within the highest level, and without a common level where events overlap. Levels fit into 32
bits if the number of events and the end of the axis do. The parts are put together from the way in
which the outcome has come about; that no violation is listed is what it means for its layout to be
valid. -/
theorem computeLayoutWith_valid (solver : Solver) (sound : solver.Sound)
    (settings : LayoutSettings) (events : List ClippedEvent) :
    let outcome := computeLayoutWith solver settings events
    outcome.violations = [] ∧
      (∃! origin, outcome.ComesFrom solver settings events origin) ∧
      (¬ (outcome.fellBack = true ∧ settings.onSolverFailure = .empty) →
        outcome.layout.events.map LeveledEvent.event = events ∧
        (∀ band ∈ outcome.layout.events,
          band.minLevel ≤ band.maxLevel ∧ band.maxLevel ≤ outcome.layout.maxLevel) ∧
        outcome.layout.events.Pairwise fun a b =>
          Overlaps a b → ∀ level, ¬ (a.Covers level ∧ b.Covers level)) ∧
      (events.length < 2 ^ 32 → settings.maxLevel < 2 ^ 32 → outcome.layout.maxLevel < 2 ^ 32) := by
  intro outcome
  obtain ⟨⟨origin, comes⟩, listed⟩ := LayoutOutcome.exists_comesFrom solver settings events
  have kept := LayoutOutcome.map_event_of_comesFrom solver settings events outcome origin comes
  obtain ⟨valid, highest⟩ :=
    LayoutOutcome.spec_of_comesFrom solver sound settings events outcome origin comes
  refine ⟨?_, ⟨origin, comes, fun other also => ?_⟩, fun shown => ?_, fun few low => ?_⟩
  · exact listed.trans (outcome.layout.violations_eq_nil_iff.mpr valid)
  · exact LayoutOutcome.ComesFrom.unique solver settings events outcome other origin also comes
  · exact ⟨kept shown, fun band present => ⟨valid.ordered band present,
      valid.bounded band present⟩, valid.apart⟩
  · omega

/-- The solver that is used is sound. Two overlapping events do not fit on an axis of one level, so
the even layout of them fails, and they are laid out greedily. -/
theorem computeLayoutWith_valid_of_two :
    Bands.solver.Sound ∧
      computeLayoutWith Bands.solver ⟨.constraint, .greedy, 1⟩ [⟨0, 60, 1⟩, ⟨30, 90, 2⟩] =
        ⟨⟨[⟨⟨0, 60, 1⟩, 0, 0⟩, ⟨⟨30, 90, 2⟩, 1, 1⟩], 1⟩, .greedy, true, []⟩ ∧
      ∃! origin, (computeLayoutWith Bands.solver ⟨.constraint, .greedy, 1⟩
        [⟨0, 60, 1⟩, ⟨30, 90, 2⟩]).ComesFrom Bands.solver ⟨.constraint, .greedy, 1⟩
          [⟨0, 60, 1⟩, ⟨30, 90, 2⟩] origin := by
  have sound : Bands.solver.Sound :=
    Bands.solver.sound_of_minimises (Linear.exactSolver_minimises Bands.advice)
  obtain ⟨-, unique, -, -⟩ := computeLayoutWith_valid Bands.solver sound
    ⟨.constraint, .greedy, 1⟩ [⟨0, 60, 1⟩, ⟨30, 90, 2⟩]
  exact ⟨sound, by decide +kernel, unique⟩

end CalendarDial
