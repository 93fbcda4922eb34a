import CalendarDial.Proofs.Violation

/-!
# The list of violations

The check walks over the events first and over the pairs of positions afterwards. What it lists is
in a strict order, so nothing is listed twice, and each kind of violation is listed exactly where
its rule is broken, with the levels of the event that breaks it.
-/

namespace CalendarDial

namespace Violation

/-- One violation has its place before another: those of single events in the order of the events,
an inverted band before one that is too high, and then those of pairs in lexicographic order. -/
def Before : Violation → Violation → Prop
  | invertedBand i _ _, invertedBand j _ _ => i < j
  | invertedBand i _ _, aboveGlobalMax j _ _ => i ≤ j
  | aboveGlobalMax i _ _, invertedBand j _ _ => i < j
  | aboveGlobalMax i _ _, aboveGlobalMax j _ _ => i < j
  | sharedLevel i j, sharedLevel k l => i < k ∨ i = k ∧ j < l
  | sharedLevel _ _, _ => False
  | _, sharedLevel _ _ => True

/-- No violation has its place before itself. Every case of the order asks for a position that is
smaller than itself. -/
theorem not_before_self (violation : Violation) : ¬ violation.Before violation := by
  cases violation <;> simp only [Before] <;> omega

end Violation

namespace LeveledEvent

variable (globalMax index : Nat) (band : LeveledEvent)

/-- The violations of a single event are its band being inverted and its band being too high, each
with the position and the levels that show it. The list is put together from the two, each there on
its condition. -/
theorem mem_violations_iff (violation : Violation) :
    violation ∈ band.violations globalMax index ↔
      (violation = .invertedBand index band.minLevel band.maxLevel ∧
        band.maxLevel < band.minLevel) ∨
      (violation = .aboveGlobalMax index band.maxLevel globalMax ∧ globalMax < band.maxLevel) := by
  rw [violations, List.mem_append, List.mem_ite_nil_right, List.mem_ite_nil_right,
    List.mem_singleton, List.mem_singleton]
  exact or_congr and_comm and_comm

/-- The violations of a single event are listed in order. There are two at most, and the inverted
band comes first. -/
theorem pairwise_violations : (band.violations globalMax index).Pairwise Violation.Before := by
  rw [violations, List.pairwise_append]
  refine ⟨?_, ?_, ?_⟩
  · split
    · exact List.pairwise_singleton _ _
    · exact List.Pairwise.nil
  · split
    · exact List.pairwise_singleton _ _
    · exact List.Pairwise.nil
  · intro inverted first high second
    rw [List.mem_ite_nil_right, List.mem_singleton] at first second
    obtain ⟨-, rfl⟩ := first
    obtain ⟨-, rfl⟩ := second
    exact Nat.le_refl index

/-- The violations of an event are listed before those of a later one. Whatever the two are about,
their places are compared by position first. -/
theorem before_of_lt (later : Nat) (other : LeveledEvent) (ordered : index < later)
    (first second : Violation) (ofBand : first ∈ band.violations globalMax index)
    (ofOther : second ∈ other.violations globalMax later) : first.Before second := by
  rcases (band.mem_violations_iff globalMax index first).mp ofBand with
    ⟨rfl, -⟩ | ⟨rfl, -⟩ <;>
  rcases (other.mem_violations_iff globalMax later second).mp ofOther with
    ⟨rfl, -⟩ | ⟨rfl, -⟩
  · exact ordered
  · exact Nat.le_of_lt ordered
  · exact ordered
  · exact ordered

/-- The violation of a pair is listed after those of single events. That is how the order is laid
down for every kind of violation of a single event. -/
theorem before_sharedLevel (violation : Violation)
    (single : violation ∈ band.violations globalMax index) (i j : Nat) :
    violation.Before (.sharedLevel i j) := by
  rcases (band.mem_violations_iff globalMax index violation).mp single with ⟨rfl, -⟩ | ⟨rfl, -⟩
  · exact trivial
  · exact trivial

end LeveledEvent

namespace Layout

variable (layout : Layout)

/-- What is listed is a violation of a single event or a pair of events that clash. The list is made
from these two parts, and an event is found in the first at its own position. -/
theorem mem_violations_iff (violation : Violation) :
    violation ∈ layout.violations ↔
      (∃ (index : Nat) (band : LeveledEvent), layout.events[index]? = some band ∧
        violation ∈ band.violations layout.maxLevel index) ∨
      ∃ i j, (i, j) ∈ positionPairs LeveledEvent.Clashes layout.events ∧
        violation = .sharedLevel i j := by
  rw [violations, List.mem_append, List.mem_flatMap, List.mem_map]
  simp only [Prod.exists, List.mem_zipIdx_iff_getElem?]
  exact or_congr exists_comm (by simp only [eq_comm])

/-- The violations are listed in order. Three things make it so: the violations of one event are in
order, those of earlier events come before those of later ones, and pairs of positions are listed
lexicographically after all single events. -/
theorem pairwise_violations : layout.violations.Pairwise Violation.Before := by
  rw [violations, List.pairwise_append]
  refine ⟨?singles, ?pairs, ?across⟩
  case singles =>
    rw [List.pairwise_flatMap]
    constructor
    · rintro ⟨band, index⟩ -
      exact band.pairwise_violations layout.maxLevel index
    · refine (pairwise_zipIdx layout.events).imp ?_
      rintro ⟨band, index⟩ ⟨other, later⟩ ordered first ofBand second ofOther
      exact band.before_of_lt layout.maxLevel index later other ordered first second ofBand ofOther
  case pairs =>
    rw [List.pairwise_map]
    exact pairwise_positionPairs LeveledEvent.Clashes layout.events
  case across =>
    intro violation single _ pair
    obtain ⟨⟨band, index⟩, -, shown⟩ := List.mem_flatMap.mp single
    obtain ⟨⟨i, j⟩, -, rfl⟩ := List.mem_map.mp pair
    exact band.before_sharedLevel layout.maxLevel index violation shown i j

/-- Nothing is listed twice. A violation listed twice would have its place before itself. -/
theorem nodup_violations : layout.violations.Nodup := by
  refine layout.pairwise_violations.imp ?_
  rintro violation _ before rfl
  exact violation.not_before_self before

/-- An inverted band is listed exactly where there is one, with its levels. The other violations
that the check lists are of other kinds. -/
theorem invertedBand_mem_iff (index minLevel maxLevel : Nat) :
    .invertedBand index minLevel maxLevel ∈ layout.violations ↔
      ∃ band, layout.events[index]? = some band ∧ band.maxLevel < band.minLevel ∧
        minLevel = band.minLevel ∧ maxLevel = band.maxLevel := by
  rw [mem_violations_iff]
  constructor
  · rintro (⟨_, band, found, single⟩ | ⟨_, _, -, pair⟩)
    · rcases (band.mem_violations_iff _ _ _).mp single with ⟨same, inverted⟩ | ⟨high, -⟩
      · obtain ⟨rfl, rfl, rfl⟩ := Violation.invertedBand.inj same
        exact ⟨band, found, inverted, rfl, rfl⟩
      · cases high
    · cases pair
  · rintro ⟨band, found, inverted, rfl, rfl⟩
    exact .inl ⟨index, band, found, (band.mem_violations_iff _ _ _).mpr (.inl ⟨rfl, inverted⟩)⟩

/-- A band that is too high is listed exactly where there is one, with its highest level and that of
the layout. No other kind of violation looks like it. -/
theorem aboveGlobalMax_mem_iff (index maxLevel globalMax : Nat) :
    .aboveGlobalMax index maxLevel globalMax ∈ layout.violations ↔
      ∃ band, layout.events[index]? = some band ∧ layout.maxLevel < band.maxLevel ∧
        maxLevel = band.maxLevel ∧ globalMax = layout.maxLevel := by
  rw [mem_violations_iff]
  constructor
  · rintro (⟨_, band, found, single⟩ | ⟨_, _, -, pair⟩)
    · rcases (band.mem_violations_iff _ _ _).mp single with ⟨inverted, -⟩ | ⟨same, high⟩
      · cases inverted
      · obtain ⟨rfl, rfl, rfl⟩ := Violation.aboveGlobalMax.inj same
        exact ⟨band, found, high, rfl, rfl⟩
    · cases pair
  · rintro ⟨band, found, high, rfl, rfl⟩
    exact .inl ⟨index, band, found, (band.mem_violations_iff _ _ _).mpr (.inr ⟨rfl, high⟩)⟩

/-- Two positions are listed exactly when they are in order and their events clash. Violations of
single events are of other kinds, and the pairs are those that the walk over the positions finds. -/
theorem sharedLevel_mem_iff (first second : Nat) :
    .sharedLevel first second ∈ layout.violations ↔
      first < second ∧ ∃ a b, layout.events[first]? = some a ∧ layout.events[second]? = some b ∧
        a.Clashes b := by
  rw [mem_violations_iff, ← mem_positionPairs_iff]
  constructor
  · rintro (⟨_, band, -, single⟩ | ⟨_, _, paired, same⟩)
    · rcases (band.mem_violations_iff _ _ _).mp single with ⟨inverted, -⟩ | ⟨high, -⟩
      · cases inverted
      · cases high
    · obtain ⟨rfl, rfl⟩ := Violation.sharedLevel.inj same
      exact paired
  · intro paired
    exact .inr ⟨first, second, paired, rfl⟩

/-- The check is sound and complete, for bands of every kind. It finds nothing exactly when the
layout is valid. What it lists is in a strict order and so without repetitions: first the violations
of single events, event by event, and then those of pairs, in lexicographic order of the positions.
Each is listed exactly when the event at its position, or the two events, break the rule, and the
levels given are those of the event and of the layout. The parts are the results above, with the
clash of two events spelled out in times and levels. -/
theorem violations_exact :
    (layout.violations = [] ↔ layout.Valid) ∧
    layout.violations.Nodup ∧
    layout.violations.Pairwise Violation.Before ∧
    (∀ index minLevel maxLevel, .invertedBand index minLevel maxLevel ∈ layout.violations ↔
      ∃ band, layout.events[index]? = some band ∧ band.maxLevel < band.minLevel ∧
        minLevel = band.minLevel ∧ maxLevel = band.maxLevel) ∧
    (∀ index maxLevel globalMax, .aboveGlobalMax index maxLevel globalMax ∈ layout.violations ↔
      ∃ band, layout.events[index]? = some band ∧ layout.maxLevel < band.maxLevel ∧
        maxLevel = band.maxLevel ∧ globalMax = layout.maxLevel) ∧
    ∀ first second, .sharedLevel first second ∈ layout.violations ↔
      first < second ∧ ∃ a b, layout.events[first]? = some a ∧ layout.events[second]? = some b ∧
        Overlaps a b ∧ a.minLevel ≤ b.maxLevel ∧ b.minLevel ≤ a.maxLevel :=
  ⟨layout.violations_eq_nil_iff, layout.nodup_violations, layout.pairwise_violations,
    layout.invertedBand_mem_iff, layout.aboveGlobalMax_mem_iff, layout.sharedLevel_mem_iff⟩

/-- An inverted band covers no level, and still clashes with one that reaches over both its ends. -/
example : (⟨[⟨⟨0, 60, 1⟩, 3, 2⟩, ⟨⟨30, 90, 2⟩, 0, 5⟩], 4⟩ : Layout).violations =
    [.invertedBand 0 3 2, .aboveGlobalMax 1 5 4, .sharedLevel 0 1] := by decide

end Layout

end CalendarDial
