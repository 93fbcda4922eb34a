import CalendarDial.Violation

/-!
# What the check says

No violation is listed exactly when the layout is valid: every band is the right way up and within
the highest level, and no level belongs to the bands of two events that overlap in time. The check
compares the ends of two bands, which says the same about the levels between them because the bands
have been found to be the right way up.
-/

namespace CalendarDial

namespace LeveledEvent

/-- The level lies in the closed band. -/
def Covers (band : LeveledEvent) (level : Nat) : Prop :=
  band.minLevel ≤ level ∧ level ≤ band.maxLevel

/-- The levels of a band are those that it covers. The levels are counted up from the lowest one, as
many as reach to the highest one. -/
theorem mem_levels_iff (band : LeveledEvent) (level : Nat) :
    level ∈ band.levels ↔ band.Covers level := by
  rw [levels, List.mem_range'_1, Covers]
  omega

/-- Bands that are the right way up share a level exactly when the check says so. The higher of the
two lower ends lies in both bands, since neither band ends below its own lower end or that of the
other. -/
theorem sharesLevel_iff (a b : LeveledEvent) (first : a.minLevel ≤ a.maxLevel)
    (second : b.minLevel ≤ b.maxLevel) :
    a.SharesLevel b ↔ ∃ level, a.Covers level ∧ b.Covers level := by
  constructor
  · rintro ⟨below, above⟩
    refine ⟨max a.minLevel b.minLevel, ⟨?_, ?_⟩, ⟨?_, ?_⟩⟩ <;> omega
  · rintro ⟨level, ⟨lowerFirst, upperFirst⟩, ⟨lowerSecond, upperSecond⟩⟩
    constructor <;> omega

/-- An event by itself shows no violation exactly when its band is the right way up and within the
highest level. Each of its two possible violations is listed on the opposite of one of these
conditions. -/
theorem violations_eq_nil_iff (globalMax index : Nat) (band : LeveledEvent) :
    band.violations globalMax index = [] ↔
      band.minLevel ≤ band.maxLevel ∧ band.maxLevel ≤ globalMax := by
  rw [violations, List.append_eq_nil_iff, ite_eq_right_iff, ite_eq_right_iff]
  simp only [List.cons_ne_nil, imp_false, Nat.not_lt]

end LeveledEvent

/-- Every band is the right way up and within the highest level, and events that overlap in time
have no level in common. -/
structure Layout.Valid (layout : Layout) : Prop where
  ordered : ∀ band ∈ layout.events, band.minLevel ≤ band.maxLevel
  bounded : ∀ band ∈ layout.events, band.maxLevel ≤ layout.maxLevel
  apart : layout.events.Pairwise fun a b =>
    Overlaps a b → ∀ level, ¬ (a.Covers level ∧ b.Covers level)

/-- There are no related pairs exactly when no two elements in order are related. The list holds
every pair of positions in order whose elements are related, so it is empty when there is no such
pair. -/
theorem positionPairs_eq_nil_iff {α : Type} (related : α → α → Prop)
    [∀ a b, Decidable (related a b)] (elements : List α) :
    positionPairs related elements = [] ↔ elements.Pairwise fun a b => ¬ related a b := by
  rw [List.eq_nil_iff_forall_not_mem, List.pairwise_iff_getElem, Prod.forall]
  simp only [mem_positionPairs_iff]
  constructor
  · intro none i j first second ordered holds
    exact none i j ⟨ordered, _, _, List.getElem?_eq_getElem first,
      List.getElem?_eq_getElem second, holds⟩
  · rintro separate i j ⟨ordered, a, b, first, second, holds⟩
    obtain ⟨boundFirst, rfl⟩ := List.getElem?_eq_some_iff.mp first
    obtain ⟨boundSecond, rfl⟩ := List.getElem?_eq_some_iff.mp second
    exact separate i j boundFirst boundSecond ordered holds

/-- The check of single events finds nothing exactly when all of them pass. The position that goes
with an event has no influence on whether it passes. -/
theorem flatMap_violations_eq_nil_iff (globalMax : Nat) (events : List LeveledEvent) :
    (events.zipIdx.flatMap fun (band, index) => band.violations globalMax index) = [] ↔
      ∀ band ∈ events, band.minLevel ≤ band.maxLevel ∧ band.maxLevel ≤ globalMax := by
  rw [List.flatMap_eq_nil_iff, Prod.forall]
  simp only [LeveledEvent.violations_eq_nil_iff]
  constructor
  · intro passes band present
    obtain ⟨index, bound, rfl⟩ := List.mem_iff_getElem.mp present
    exact passes _ index (List.mem_zipIdx_iff_getElem?.mpr (List.getElem?_eq_getElem bound))
  · intro passes band index listed
    exact passes band (List.mem_of_getElem? (List.mem_zipIdx_iff_getElem?.mp listed))

/-- No violation is listed exactly when the layout is valid. The two ways to say that bands are
apart, by their ends and by the levels between, agree once the bands are the right way up, and that
is what the check of single events has found. -/
theorem Layout.violations_eq_nil_iff (layout : Layout) :
    layout.violations = [] ↔ layout.Valid := by
  rw [Layout.violations, List.append_eq_nil_iff, List.map_eq_nil_iff,
    flatMap_violations_eq_nil_iff, positionPairs_eq_nil_iff]
  have same (passes : ∀ band ∈ layout.events, band.minLevel ≤ band.maxLevel) :
      (layout.events.Pairwise fun a b => ¬ a.Clashes b) ↔
        layout.events.Pairwise fun a b =>
          Overlaps a b → ∀ level, ¬ (a.Covers level ∧ b.Covers level) := by
    apply List.Pairwise.iff_of_mem
    intro a b first second
    rw [LeveledEvent.Clashes, not_and,
      LeveledEvent.sharesLevel_iff a b (passes a first) (passes b second), not_exists]
  constructor
  · rintro ⟨singles, apart⟩
    have ordered := fun band present => (singles band present).1
    exact ⟨ordered, fun band present => (singles band present).2, (same ordered).mp apart⟩
  · rintro ⟨ordered, bounded, apart⟩
    exact ⟨fun band present => ⟨ordered band present, bounded band present⟩,
      (same ordered).mpr apart⟩

end CalendarDial
