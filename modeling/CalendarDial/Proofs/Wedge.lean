import Mathlib.Data.Real.Basic
import Mathlib.Tactic.Linarith
import Mathlib.Tactic.Positivity
import Mathlib.Tactic.Ring
import CalendarDial.Proofs.Display
import CalendarDial.Proofs.Outcome
import CalendarDial.Wedge

/-!
# Wedges that do not meet

A point of the dial has an angle, which counts modulo a full turn, and a radius. It lies strictly
inside a wedge when some number of turns brings its angle strictly between the two straight edges
and its radius is strictly between the two round ones.

The angle of such a point is the time of an instant inside the event, give or take whole turns of
the hour hand, and its radius is taken by a level of the band. Everything on display lies inside one
window of a single turn, so two wedges with a point in common belong to events that overlap, and
whose bands have a level in common. A valid layout has no such events.
-/

namespace CalendarDial

open Linear (Solver)

namespace Wedge

/-- The point with the given angle and radius lies strictly inside the wedge. Angles are taken
modulo a full turn. -/
def Contains (wedge : Wedge Rat) (angle radius : ℝ) : Prop :=
  (∃ turns : ℤ, (wedge.startDegrees : ℝ) < angle + 360 * turns ∧
    angle + 360 * turns < wedge.startDegrees + wedge.sweepDegrees) ∧
  (wedge.innerFraction : ℝ) < radius ∧ radius < wedge.outerFraction

/-- The wedge starts within the first turn, sweeps over something but not over a full turn, and has
its edges in order between the middle and the rim of the dial. -/
structure OnDial (wedge : Wedge Rat) : Prop where
  start_nonneg : 0 ≤ wedge.startDegrees
  start_lt : wedge.startDegrees < 360
  sweep_pos : 0 < wedge.sweepDegrees
  sweep_lt : wedge.sweepDegrees < 360
  inner_nonneg : 0 ≤ wedge.innerFraction
  inner_lt_outer : wedge.innerFraction < wedge.outerFraction
  outer_le_one : wedge.outerFraction ≤ 1

end Wedge

namespace LeveledEvent

/-- The wedge of an event in exact numbers. -/
def sector (event : LeveledEvent) (globalMax : Nat) : Wedge Rat where
  startDegrees := (event.event.startMs % Instant.turn : Int) / 120000
  sweepDegrees := (event.event.endMs - event.event.startMs : Int) / 120000
  innerFraction := event.minLevel / (globalMax + 1)
  outerFraction := (event.maxLevel + 1) / (globalMax + 1)

/-- An event whose length 64 bits hold has its wedge. A degree takes two minutes. Taking the length
is the only step that could fail. -/
theorem exactWedge_eq_ok (event : LeveledEvent) (globalMax : Nat)
    (fits : Instant.Representable (event.event.endMs - event.event.startMs)) :
    event.exactWedge globalMax = .ok (event.sector globalMax) := by
  have degrees (ms : Int) : (ms : Rat) / (Instant.turn : Int) * (360 : Int) = ms / 120000 := by
    simp only [Instant.turn, Instant.hour]
    push_cast
    ring
  rw [exactWedge, wedgeIn, ClippedEvent.duration, Instant.sub_eq_ok_iff.mpr ⟨fits, rfl⟩]
  simp only [bind, Except.bind, pure, Except.pure, degrees, sector, Int.cast_natCast, Int.cast_one]

/-- The wedge of an event that a proper window holds, with a band that is the right way up and
within the highest level, lies on the dial. A start is taken modulo a turn, an event in the window
is shorter than a turn, and a band that is the right way up has its inner edge inside its outer
one. -/
theorem onDial_sector (window : Window) (proper : window.Proper) (event : LeveledEvent)
    (globalMax : Nat) (held : window.Holds event.event)
    (ordered : event.minLevel ≤ event.maxLevel) (bounded : event.maxLevel ≤ globalMax) :
    (event.sector globalMax).OnDial := by
  obtain ⟨-, forward, -, shorter⟩ := held
  rw [proper.span, add_sub_cancel_left] at shorter
  have first : (0 : Rat) ≤ (event.event.startMs % Instant.turn : Int) := by
    exact_mod_cast Int.emod_nonneg event.event.startMs (by decide)
  have last : ((event.event.startMs % Instant.turn : Int) : Rat) < 43200000 := by
    exact_mod_cast Int.emod_lt_of_pos event.event.startMs (by decide : 0 < Instant.turn)
  have length : (0 : Rat) < (event.event.endMs - event.event.startMs : Int) := by
    exact_mod_cast Int.sub_pos_of_lt forward
  have short : ((event.event.endMs - event.event.startMs : Int) : Rat) < 43200000 := by
    exact_mod_cast shorter
  have rings : (0 : Rat) < globalMax + 1 := by positivity
  have band : (event.minLevel : Rat) ≤ event.maxLevel := by exact_mod_cast ordered
  have highest : (event.maxLevel : Rat) ≤ globalMax := by exact_mod_cast bounded
  constructor <;> dsimp only [sector]
  · positivity
  · linarith
  · positivity
  · linarith
  · positivity
  · exact div_lt_div_of_pos_right (by linarith) rings
  · rw [div_le_one rings]
    linarith

/-- A radius that lies outside the inner edge of one level and inside the outer edge of another
shows that the first level is not above the second. Both edges are counted in the same rings, so the
inner edge of the one has fewer of them than the outer edge of the other. -/
theorem level_le_of_radius (globalMax lower upper : Nat) (radius : ℝ)
    (outside : ((lower / (globalMax + 1) : Rat) : ℝ) < radius)
    (inside : radius < (((upper + 1) / (globalMax + 1) : Rat) : ℝ)) : lower ≤ upper := by
  have rings : (0 : Rat) < globalMax + 1 := by positivity
  have crossed : (lower / (globalMax + 1) : Rat) < (upper + 1) / (globalMax + 1) := by
    exact_mod_cast outside.trans inside
  rw [div_lt_div_iff_of_pos_right rings] at crossed
  have strict : lower < upper + 1 := by exact_mod_cast crossed
  omega

/-- The angle of a point inside the wedge is the time of an instant inside the event, up to whole
turns of the hour hand. The turns that the start of the event has behind it are added to those of
the angle. -/
theorem exists_instant_of_contains (event : LeveledEvent) (globalMax : Nat) (angle radius : ℝ)
    (inside : (event.sector globalMax).Contains angle radius) :
    ∃ turns : ℤ, (event.event.startMs : ℝ) < angle * 120000 + turns * 43200000 ∧
      angle * 120000 + turns * 43200000 < event.event.endMs := by
  obtain ⟨⟨turns, after, before⟩, -⟩ := inside
  have split : (event.event.startMs : ℝ) = (event.event.startMs % Instant.turn : Int) +
      43200000 * (event.event.startMs / Instant.turn : Int) := by
    exact_mod_cast (Int.emod_add_mul_ediv event.event.startMs Instant.turn).symm
  simp only [sector] at after before
  push_cast at after before
  refine ⟨turns + event.event.startMs / Instant.turn, ?_, ?_⟩
  · push_cast
    linarith
  · push_cast
    linarith

/-- Two instants between the same ends, a turn of the hour hand apart, that differ by whole turns
are the same. Two different whole numbers would put them at least a turn apart. -/
theorem turns_eq (first time : ℝ) (m n : ℤ) (afterM : first < time + m * 43200000)
    (beforeM : time + m * 43200000 < first + 43200000) (afterN : first < time + n * 43200000)
    (beforeN : time + n * 43200000 < first + 43200000) : m = n := by
  have above : (m : ℝ) < n + 1 := by linarith
  have below : (n : ℝ) < m + 1 := by linarith
  have le : m < n + 1 := by exact_mod_cast above
  have ge : n < m + 1 := by exact_mod_cast below
  omega

/-- Wedges with a point in common belong to events that overlap and share a level. The radius of the
point lies in both bands. Its angle is an instant inside either event, up to whole turns, and since
the window lasts a single turn it is the same instant for both. -/
theorem clashes_of_contains (window : Window) (proper : window.Proper) (a b : LeveledEvent)
    (globalMax : Nat) (heldFirst : window.Holds a.event) (heldSecond : window.Holds b.event)
    (angle radius : ℝ) (insideFirst : (a.sector globalMax).Contains angle radius)
    (insideSecond : (b.sector globalMax).Contains angle radius) : a.Clashes b := by
  have shared : a.SharesLevel b :=
    ⟨level_le_of_radius globalMax _ _ radius insideFirst.2.1 insideSecond.2.2,
      level_le_of_radius globalMax _ _ radius insideSecond.2.1 insideFirst.2.2⟩
  obtain ⟨m, afterFirst, beforeFirst⟩ := exists_instant_of_contains a _ angle radius insideFirst
  obtain ⟨n, afterSecond, beforeSecond⟩ := exists_instant_of_contains b _ angle radius insideSecond
  have within (event : ClippedEvent) (held : window.Holds event) :
      ((window.startMs + window.utcOffsetMs : Int) : ℝ) ≤ event.startMs ∧
        (event.endMs : ℝ) ≤ (window.startMs + window.utcOffsetMs : Int) + 43200000 := by
    have ends := held.ends
    rw [proper.span, add_right_comm] at ends
    exact ⟨by exact_mod_cast held.starts, by exact_mod_cast ends⟩
  obtain ⟨startFirst, endFirst⟩ := within a.event heldFirst
  obtain ⟨startSecond, endSecond⟩ := within b.event heldSecond
  obtain rfl : m = n :=
    turns_eq _ (angle * 120000) m n (startFirst.trans_lt afterFirst) (beforeFirst.trans_le endFirst)
      (startSecond.trans_lt afterSecond) (beforeSecond.trans_le endSecond)
  have overlapFirst : (a.event.startMs : ℝ) < b.event.endMs := afterFirst.trans beforeSecond
  have overlapSecond : (b.event.startMs : ℝ) < a.event.endMs := afterSecond.trans beforeFirst
  exact ⟨⟨by exact_mod_cast overlapFirst, by exact_mod_cast overlapSecond⟩, shared⟩

end LeveledEvent

/-- The events of a valid layout that a proper window holds have wedges that lie on the dial and
have no point in common. Two events with a common point would overlap and share a level, which no
two events of a valid layout do. -/
theorem Layout.Valid.wedges (window : Window) (proper : window.Proper) (layout : Layout)
    (valid : layout.Valid) (held : ∀ band ∈ layout.events, window.Holds band.event) :
    ∃ wedges, layout.events.mapM (·.exactWedge layout.maxLevel) = .ok wedges ∧
      (∀ wedge ∈ wedges, wedge.OnDial) ∧
      wedges.Pairwise fun a b => ∀ angle radius : ℝ,
        ¬ (a.Contains angle radius ∧ b.Contains angle radius) := by
  have made := mapM_eq_ok (·.exactWedge layout.maxLevel) (·.sector layout.maxLevel) layout.events
    fun band present => band.exactWedge_eq_ok layout.maxLevel
      ((held band present).representable window proper band.event)
  refine ⟨_, made, ?_, List.pairwise_map.mpr (valid.apart.imp_of_mem ?_)⟩
  · intro wedge drawn
    obtain ⟨band, present, rfl⟩ := List.mem_map.mp drawn
    exact band.onDial_sector window proper layout.maxLevel (held band present)
      (valid.ordered band present) (valid.bounded band present)
  · rintro a b first second apart angle radius ⟨insideFirst, insideSecond⟩
    obtain ⟨overlap, shared⟩ := LeveledEvent.clashes_of_contains window proper a b layout.maxLevel
      (held a first) (held b second) angle radius insideFirst insideSecond
    obtain ⟨level, covers⟩ := (LeveledEvent.sharesLevel_iff a b (valid.ordered a first)
      (valid.ordered b second)).mp shared
    exact apart overlap level covers

/-- What is shown in a proper window can all be drawn. There is an outcome and a wedge for each of
its events, the wedges lie on the dial, and no two of them have a point in common. The window is
proper because its ends can be taken on the local clock, whatever is shown in it lies inside, and
the layout is valid because the solver is sound. -/
theorem outcomeForWith_wedges (solver : Solver) (sound : solver.Sound) (settings : LayoutSettings)
    (startMs utcOffsetMs : Int) (window : Window) (events : List RawEvent)
    (built : Window.startingAt startMs utcOffsetMs = .ok window)
    (localStart : Instant.Representable (window.startMs + window.utcOffsetMs))
    (localEnd : Instant.Representable (window.endMs + window.utcOffsetMs)) :
    ∃ outcome wedges, outcomeForWith solver settings window events = .ok outcome ∧
      outcome.layout.events.mapM (·.exactWedge outcome.layout.maxLevel) = .ok wedges ∧
      (∀ wedge ∈ wedges, wedge.OnDial) ∧
      wedges.Pairwise fun a b => ∀ angle radius : ℝ,
        ¬ (a.Contains angle radius ∧ b.Contains angle radius) := by
  obtain ⟨-, rfl⟩ := (Window.startingAt_eq_ok_iff startMs utcOffsetMs window).mp built
  have proper : Window.Proper ⟨startMs, startMs + Instant.turn, utcOffsetMs⟩ :=
    ⟨rfl, localStart, localEnd⟩
  generalize Window.mk startMs (startMs + Instant.turn) utcOffsetMs = window at proper
  have valid : (computeLayoutWith solver settings (window.shown events)).layout.Valid := by
    obtain ⟨⟨origin, comes⟩, -⟩ :=
      LayoutOutcome.exists_comesFrom solver settings (window.shown events)
    exact (LayoutOutcome.spec_of_comesFrom solver sound settings _ _ origin comes).1
  have held : ∀ band ∈ (computeLayoutWith solver settings (window.shown events)).layout.events,
      window.Holds band.event := fun band shown =>
    window.holds_of_mem_shown events band.event
      (event_mem_of_mem_layout solver settings _ band shown)
  obtain ⟨wedges, drawn, placed, apart⟩ := valid.wedges window proper _ held
  exact ⟨_, wedges, outcomeForWith_eq_ok solver settings window proper events, drawn, placed, apart⟩

/-- Two events around noon in a window that starts at ten. The wedge of the first passes twelve
o'clock, the wedge of the second starts there, and they lie side by side on the radius. -/
theorem outcomeForWith_wedges_around_noon :
    Bands.solver.Sound ∧
    Window.startingAt 36000000 0 = .ok ⟨36000000, 79200000, 0⟩ ∧
    Instant.Representable (36000000 + 0) ∧ Instant.Representable (79200000 + 0) ∧
    outcomeForWith Bands.solver ⟨.constraint, .greedy, 4⟩ ⟨36000000, 79200000, 0⟩
        [⟨39600000, 46800000, 1⟩, ⟨43200000, 50400000, 2⟩] =
      .ok ⟨⟨[⟨⟨39600000, 46800000, 1⟩, 0, 1⟩, ⟨⟨43200000, 50400000, 2⟩, 2, 3⟩], 4⟩,
        .constraint, false, []⟩ ∧
    (⟨330, 60, 0, 2 / 5⟩ : Wedge Rat).OnDial ∧
    ∀ angle radius : ℝ, ¬ ((⟨330, 60, 0, 2 / 5⟩ : Wedge Rat).Contains angle radius ∧
      (⟨0, 60, 2 / 5, 4 / 5⟩ : Wedge Rat).Contains angle radius) := by
  have sound : Bands.solver.Sound :=
    Bands.solver.sound_of_minimises (Linear.exactSolver_minimises Bands.advice)
  have built : Window.startingAt 36000000 0 = .ok ⟨36000000, 79200000, 0⟩ := by decide +kernel
  have localStart : Instant.Representable (36000000 + 0) := by decide
  have localEnd : Instant.Representable (79200000 + 0) := by decide
  have shown : Window.shown ⟨36000000, 79200000, 0⟩
      [⟨39600000, 46800000, 1⟩, ⟨43200000, 50400000, 2⟩] =
      [⟨39600000, 46800000, 1⟩, ⟨43200000, 50400000, 2⟩] := by cbv
  have laidOut : computeLayoutWith Bands.solver ⟨.constraint, .greedy, 4⟩
      [⟨39600000, 46800000, 1⟩, ⟨43200000, 50400000, 2⟩] =
      ⟨⟨[⟨⟨39600000, 46800000, 1⟩, 0, 1⟩, ⟨⟨43200000, 50400000, 2⟩, 2, 3⟩], 4⟩,
        .constraint, false, []⟩ := by decide +kernel
  have made := outcomeForWith_eq_ok Bands.solver ⟨.constraint, .greedy, 4⟩
    ⟨36000000, 79200000, 0⟩ ⟨rfl, localStart, localEnd⟩
    [⟨39600000, 46800000, 1⟩, ⟨43200000, 50400000, 2⟩]
  rw [shown, laidOut] at made
  obtain ⟨outcome, wedges, found, drawn, placed, apart⟩ := outcomeForWith_wedges Bands.solver sound
    ⟨.constraint, .greedy, 4⟩ 36000000 0 ⟨36000000, 79200000, 0⟩
    [⟨39600000, 46800000, 1⟩, ⟨43200000, 50400000, 2⟩] built localStart localEnd
  obtain rfl := Except.ok.inj (made.symm.trans found)
  obtain rfl : [⟨330, 60, 0, 2 / 5⟩, ⟨0, 60, 2 / 5, 4 / 5⟩] = wedges :=
    Except.ok.inj (Eq.trans (by with_unfolding_all rfl) drawn)
  exact ⟨sound, built, localStart, localEnd, made, placed _ List.mem_cons_self,
    List.rel_of_pairwise_cons apart List.mem_cons_self⟩

end CalendarDial
