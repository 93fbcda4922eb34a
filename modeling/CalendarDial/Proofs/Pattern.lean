import CalendarDial.Proofs.Outcome

/-!
# Layouts depend on who overlaps whom

Two lists of events of the same length have the same pattern when the events at any two positions
overlap in one of them just if they do in the other. Nothing else about the events matters to
either engine, so the layouts of the two lists have the same bands, position by position, and the
same violations, and if one of them fails, so does the other, for the same reason.

The two lists are kept as one list of pairs, and two layouts with the same bands as one list of
twins, a band with an event on either side.
-/

namespace CalendarDial

open Linear (Solver)

/-- Events at the same two positions overlap on the left just if they do on the right. -/
def SamePattern (pairs : List (ClippedEvent × ClippedEvent)) : Prop :=
  pairs.Pairwise fun a b => Overlaps a.1 b.1 ↔ Overlaps a.2 b.2

/-- One band that is given to two events. -/
structure Twin where
  events : ClippedEvent × ClippedEvent
  minLevel : Nat
  maxLevel : Nat

namespace Twin

/-- The band with the event on the left. -/
def left (twin : Twin) : LeveledEvent := ⟨twin.events.1, twin.minLevel, twin.maxLevel⟩

/-- The band with the event on the right. -/
def right (twin : Twin) : LeveledEvent := ⟨twin.events.2, twin.minLevel, twin.maxLevel⟩

end Twin

/-- The same positions are paired in two lists if their elements are related in the same way. A pair
of positions is listed for either list if it is for the other, and as both are listed in
lexicographic order, which their members determine, the two lists are the same. -/
theorem positionPairs_map_congr {α β γ : Type} (one : β → β → Prop) (other : γ → γ → Prop)
    [∀ a b, Decidable (one a b)] [∀ a b, Decidable (other a b)] (left : α → β) (right : α → γ)
    (elements : List α)
    (same : elements.Pairwise fun a b => one (left a) (left b) ↔ other (right a) (right b)) :
    positionPairs one (elements.map left) = positionPairs other (elements.map right) := by
  have related (i j : Nat) (a b : α) (ordered : i < j) (first : elements[i]? = some a)
      (second : elements[j]? = some b) : one (left a) (left b) ↔ other (right a) (right b) := by
    obtain ⟨boundFirst, rfl⟩ := List.getElem?_eq_some_iff.mp first
    obtain ⟨boundSecond, rfl⟩ := List.getElem?_eq_some_iff.mp second
    exact List.pairwise_iff_getElem.mp same i j boundFirst boundSecond ordered
  have listed (pair : Nat × Nat) : pair ∈ positionPairs one (elements.map left) ↔
      pair ∈ positionPairs other (elements.map right) := by
    obtain ⟨i, j⟩ := pair
    simp only [mem_positionPairs_iff, List.getElem?_map, Option.map_eq_some_iff]
    refine and_congr_right fun ordered => ?_
    constructor
    · rintro ⟨_, _, ⟨a, first, rfl⟩, ⟨b, second, rfl⟩, holds⟩
      exact ⟨_, _, ⟨a, first, rfl⟩, ⟨b, second, rfl⟩,
        (related i j a b ordered first second).mp holds⟩
    · rintro ⟨_, _, ⟨a, first, rfl⟩, ⟨b, second, rfl⟩, holds⟩
      exact ⟨_, _, ⟨a, first, rfl⟩, ⟨b, second, rfl⟩,
        (related i j a b ordered first second).mpr holds⟩
  have permuted := (List.perm_ext_iff_of_nodup (nodup_positionPairs one (elements.map left))
    (nodup_positionPairs other (elements.map right))).mpr listed
  refine permuted.eq_of_pairwise ?_ (pairwise_positionPairs one _) (pairwise_positionPairs other _)
  rintro ⟨i, j⟩ ⟨k, l⟩ - - before after
  simp only at before after
  omega

/-- Lists with the same pattern ask the same of the even layout. The program is made from the number
of events and the pairs of positions that overlap. -/
theorem Bands.ofEvents_congr (pairs : List (ClippedEvent × ClippedEvent))
    (same : SamePattern pairs) (axis : Nat) :
    Program.ofEvents (pairs.map Prod.fst) axis = Program.ofEvents (pairs.map Prod.snd) axis := by
  rw [Program.ofEvents, Program.ofEvents, List.length_map, List.length_map,
    positionPairs_map_congr Overlaps Overlaps Prod.fst Prod.snd pairs same]

/-- The bands of one point for the pairs of events at their positions. -/
def Bands.twins (axis : Nat) (x : Point) (pairs : List (ClippedEvent × ClippedEvent)) : List Twin :=
  pairs.mapIdx fun i events =>
    ⟨events, (levelsOf axis (x.start i) (x.size i)).1, (levelsOf axis (x.start i) (x.size i)).2⟩

/-- No pair is lost, added or moved. Each position keeps its pair and is given a band in
addition. -/
theorem Bands.map_events_twins (axis : Nat) (x : Point)
    (pairs : List (ClippedEvent × ClippedEvent)) :
    (twins axis x pairs).map Twin.events = pairs := by
  rw [twins, List.mapIdx_eq_zipIdx_map, List.map_map]
  exact List.zipIdx_map_fst 0 pairs

/-- Two layouts have the same highest level and the same bands, in order, for events that are paired
with each other. -/
def Layout.Alike (pairs : List (ClippedEvent × ClippedEvent)) (one other : Layout) : Prop :=
  one.maxLevel = other.maxLevel ∧ ∃ twins : List Twin, one.events = twins.map Twin.left ∧
    other.events = twins.map Twin.right ∧ (twins.map Twin.events).Sublist pairs

/-- The even layouts of lists with the same pattern have the same bands, or fail for the same
reason. The solver is asked for the same program and so gives the same answer, whatever function it
is. If that is a point, both lists are rounded at it. -/
theorem Bands.layoutWith_alike (solver : Solver) (axis : Nat)
    (pairs : List (ClippedEvent × ClippedEvent)) (same : SamePattern pairs) :
    (∃ one other, layoutWith solver axis (pairs.map Prod.fst) = .ok one ∧
      layoutWith solver axis (pairs.map Prod.snd) = .ok other ∧ one.Alike pairs other) ∨
    ∃ failure, layoutWith solver axis (pairs.map Prod.fst) = .error failure ∧
      layoutWith solver axis (pairs.map Prod.snd) = .error failure := by
  simp only [layoutWith, ofEvents_congr pairs same axis]
  cases solved : (Program.ofEvents (pairs.map Prod.snd) axis).solveWith solver with
  | error failure => exact .inr ⟨failure, rfl, rfl⟩
  | ok x =>
    refine .inl ⟨_, _, rfl, rfl, rfl, twins axis x pairs, ?_, ?_, ?_⟩
    · apply List.ext_getElem?
      intro i
      simp only [roundBands, twins, List.getElem?_mapIdx, List.getElem?_map, Option.map_map]
      rfl
    · apply List.ext_getElem?
      intro i
      simp only [roundBands, twins, List.getElem?_mapIdx, List.getElem?_map, Option.map_map]
      rfl
    · rw [map_events_twins]

namespace Greedy

/-- A level is covered on the left just if it is on the right, for newcomers that overlap alike with
what has been placed. The band that covers the level on the one side is, for its twin, a band with
the same levels on the other. -/
theorem covered_twins_iff (twins : List Twin) (events : ClippedEvent × ClippedEvent)
    (same : ∀ twin ∈ twins, Overlaps twin.events.1 events.1 ↔ Overlaps twin.events.2 events.2)
    (level : Nat) :
    Covered (twins.map Twin.left) events.1 level ↔
      Covered (twins.map Twin.right) events.2 level := by
  constructor
  · rintro ⟨_, placed, overlap, within⟩
    obtain ⟨twin, present, rfl⟩ := List.mem_map.mp placed
    exact ⟨twin.right, List.mem_map_of_mem present, (same twin present).mp overlap, within⟩
  · rintro ⟨_, placed, overlap, within⟩
    obtain ⟨twin, present, rfl⟩ := List.mem_map.mp placed
    exact ⟨twin.left, List.mem_map_of_mem present, (same twin present).mpr overlap, within⟩

/-- A twin after the level above the top has been opened for a pair of newcomers. -/
def widenTwin (top : Nat) (newcomers : ClippedEvent × ClippedEvent) (twin : Twin) : Twin :=
  if twin.maxLevel = top ∧ ¬ Overlaps twin.events.1 newcomers.1 then
    { twin with maxLevel := top + 1 }
  else
    twin

/-- Twins are widened like the events on the left. The condition is the same, and a twin has the
same upper end as its left side. -/
theorem left_widenTwin (top : Nat) (newcomers : ClippedEvent × ClippedEvent) (twin : Twin) :
    (widenTwin top newcomers twin).left = widen top newcomers.1 twin.left := by
  by_cases reached : twin.maxLevel = top ∧ ¬ Overlaps twin.events.1 newcomers.1
  · rw [widenTwin, if_pos reached]
    exact (if_pos reached).symm
  · rw [widenTwin, if_neg reached]
    exact (if_neg reached).symm

/-- Twins are widened like the events on the right, if both overlap the newcomers alike. The
condition is asked of the left side, and agrees with that of the right one. -/
theorem right_widenTwin (top : Nat) (newcomers : ClippedEvent × ClippedEvent) (twin : Twin)
    (same : Overlaps twin.events.1 newcomers.1 ↔ Overlaps twin.events.2 newcomers.2) :
    (widenTwin top newcomers twin).right = widen top newcomers.2 twin.right := by
  by_cases reached : twin.maxLevel = top ∧ ¬ Overlaps twin.events.1 newcomers.1
  · rw [widenTwin, if_pos reached]
    exact (if_pos ⟨reached.1, mt same.mpr reached.2⟩).symm
  · rw [widenTwin, if_neg reached]
    exact (if_neg fun also => reached ⟨also.1, mt same.mp also.2⟩).symm

/-- Widening keeps the events of a twin. Both branches differ in the highest level only. -/
theorem events_widenTwin (top : Nat) (newcomers : ClippedEvent × ClippedEvent) (twin : Twin) :
    (widenTwin top newcomers twin).events = twin.events := by
  rw [widenTwin]
  split <;> rfl

/-- Two boards with the same top and the same bands for paired events are given bands for two more
events, which overlap alike with what has been placed. The bands are the same again. The marks of
the two boards agree, so the search finds the same hole or none on both, and a new level widens the
same twins. -/
theorem place_twins (twins : List Twin) (top : Nat) (newcomers : ClippedEvent × ClippedEvent)
    (same : ∀ twin ∈ twins,
      Overlaps twin.events.1 newcomers.1 ↔ Overlaps twin.events.2 newcomers.2) :
    ∃ (more : List Twin) (next : Nat),
      Board.place ⟨twins.map Twin.left, top⟩ newcomers.1 = ⟨more.map Twin.left, next⟩ ∧
      Board.place ⟨twins.map Twin.right, top⟩ newcomers.2 = ⟨more.map Twin.right, next⟩ ∧
      more.map Twin.events = twins.map Twin.events ++ [newcomers] := by
  have marks : forbiddenLevels ⟨twins.map Twin.left, top⟩ newcomers.1 =
      forbiddenLevels ⟨twins.map Twin.right, top⟩ newcomers.2 := by
    apply List.ext_getElem?
    intro level
    simp only [getElem?_forbiddenLevels, covered_twins_iff twins newcomers same]
  cases twins with
  | nil => exact ⟨[⟨newcomers, 0, 0⟩], top, rfl, rfl, rfl⟩
  | cons first rest =>
    simp only [Board.place, marks]
    cases findHole (forbiddenLevels ⟨(first :: rest).map Twin.right, top⟩ newcomers.2) with
    | some hole =>
      refine ⟨(first :: rest) ++ [⟨newcomers, hole.1, hole.2⟩], top, ?_, ?_, ?_⟩
      · rw [List.map_append]
        rfl
      · rw [List.map_append]
        rfl
      · rw [List.map_append]
        rfl
    | none =>
      refine ⟨(first :: rest).map (widenTwin top newcomers) ++ [⟨newcomers, top + 1, top + 1⟩],
        top + 1, ?_, ?_, ?_⟩
      · rw [List.map_append, List.map_map, List.map_map]
        have widened : Twin.left ∘ widenTwin top newcomers = widen top newcomers.1 ∘ Twin.left :=
          funext (left_widenTwin top newcomers)
        rw [widened]
        rfl
      · rw [List.map_append, List.map_map, List.map_map]
        have widened : (first :: rest).map (Twin.right ∘ widenTwin top newcomers) =
            (first :: rest).map (widen top newcomers.2 ∘ Twin.right) :=
          List.map_congr_left fun twin present =>
            right_widenTwin top newcomers twin (same twin present)
        rw [widened]
        rfl
      · rw [List.map_append, List.map_map]
        have kept : Twin.events ∘ widenTwin top newcomers = Twin.events :=
          funext (events_widenTwin top newcomers)
        rw [kept]
        rfl

/-- The boards of lists with the same pattern have the same top and the same bands. By induction on
the number of pairs, the last of which is placed last on either side. -/
theorem exists_board_twins (pairs : List (ClippedEvent × ClippedEvent))
    (same : SamePattern pairs) :
    ∃ (twins : List Twin) (top : Nat),
      board (pairs.map Prod.fst) = ⟨twins.map Twin.left, top⟩ ∧
      board (pairs.map Prod.snd) = ⟨twins.map Twin.right, top⟩ ∧
      twins.map Twin.events = pairs := by
  induction pairs using List.reverseRecOn with
  | nil => exact ⟨[], 0, rfl, rfl, rfl⟩
  | append_singleton pairs newcomers inductionHypothesis =>
    obtain ⟨earlier, -, later⟩ := List.pairwise_append.mp same
    obtain ⟨twins, top, left, right, paired⟩ := inductionHypothesis earlier
    have alike : ∀ twin ∈ twins,
        Overlaps twin.events.1 newcomers.1 ↔ Overlaps twin.events.2 newcomers.2 :=
      fun twin present => later twin.events (paired ▸ List.mem_map_of_mem present) newcomers
        (List.mem_singleton_self newcomers)
    obtain ⟨more, next, placedLeft, placedRight, joined⟩ := place_twins twins top newcomers alike
    refine ⟨more, next, ?_, ?_, joined.trans (paired ▸ rfl)⟩
    · rw [List.map_append, List.map_singleton, Board.board_concat, left]
      exact placedLeft
    · rw [List.map_append, List.map_singleton, Board.board_concat, right]
      exact placedRight

end Greedy

/-- The greedy layouts of lists with the same pattern have the same bands. They are what the two
boards hold, and these have the same bands for the same pairs. -/
theorem Greedy.layout_alike (pairs : List (ClippedEvent × ClippedEvent))
    (same : SamePattern pairs) :
    (layout (pairs.map Prod.fst)).Alike pairs (layout (pairs.map Prod.snd)) := by
  obtain ⟨twins, top, left, right, paired⟩ := exists_board_twins pairs same
  rw [layout, layout, left, right]
  exact ⟨rfl, twins, rfl, rfl, paired ▸ List.Sublist.refl _⟩

/-- Layouts with the same bands for events with the same pattern break the same rules. What single
events violate depends on their bands only, and a clash depends on bands and overlap, so the same
positions are paired on both sides. -/
theorem Layout.violations_alike (pairs : List (ClippedEvent × ClippedEvent))
    (same : SamePattern pairs) (one other : Layout) (alike : one.Alike pairs other) :
    one.violations = other.violations := by
  obtain ⟨highest, twins, left, right, listed⟩ := alike
  have pattern : twins.Pairwise fun a b => a.left.Clashes b.left ↔ a.right.Clashes b.right :=
    (List.pairwise_map.mp (same.sublist listed)).imp fun overlap => and_congr_left' overlap
  rw [Layout.violations, Layout.violations, left, right, highest]
  congr 1
  · rw [List.zipIdx_map, List.zipIdx_map, List.flatMap_map, List.flatMap_map]
    rfl
  · rw [positionPairs_map_congr LeveledEvent.Clashes LeveledEvent.Clashes Twin.left Twin.right
      twins pattern]

/-- Two outcomes came about alike: by the same engine, after the same failure or none, with the same
bands for paired events, and with the same violations. -/
structure LayoutOutcome.Alike (pairs : List (ClippedEvent × ClippedEvent))
    (one other : LayoutOutcome) : Prop where
  engine : one.engine = other.engine
  fellBack : one.fellBack = other.fellBack
  violations : one.violations = other.violations
  layout : one.layout.Alike pairs other.layout

/-- Lists with the same pattern have outcomes that came about alike, whatever the settings and the
solver. Greedy layouts are alike, even layouts are alike or fail together, and one list is empty
just if the other is; so both outcomes take the same branch everywhere. -/
theorem computeLayoutWith_alike (solver : Solver) (settings : LayoutSettings)
    (pairs : List (ClippedEvent × ClippedEvent)) (same : SamePattern pairs) :
    (computeLayoutWith solver settings (pairs.map Prod.fst)).Alike pairs
      (computeLayoutWith solver settings (pairs.map Prod.snd)) := by
  have checked (one other : Layout) (alike : one.Alike pairs other) (engine : Engine)
      (fellBack : Bool) : (LayoutOutcome.checked one engine fellBack).Alike pairs
        (LayoutOutcome.checked other engine fellBack) :=
    ⟨rfl, rfl, one.violations_alike pairs same other alike, alike⟩
  have greedy := Greedy.layout_alike pairs same
  have empty : Layout.empty.Alike pairs Layout.empty :=
    ⟨rfl, [], rfl, rfl, List.nil_sublist pairs⟩
  cases chosen : settings.primary with
  | greedy =>
    rw [LayoutOutcome.layout_of_greedyChosen solver settings _ chosen,
      LayoutOutcome.layout_of_greedyChosen solver settings _ chosen]
    exact checked _ _ greedy .greedy false
  | constraint =>
    by_cases none : pairs = []
    · subst none
      rw [List.map_nil, List.map_nil, LayoutOutcome.layout_of_even_nil solver settings chosen]
      exact checked Layout.empty Layout.empty empty .constraint false
    have someLeft : pairs.map Prod.fst ≠ [] := by simpa using none
    have someRight : pairs.map Prod.snd ≠ [] := by simpa using none
    rcases Bands.layoutWith_alike solver settings.maxLevel pairs same with
      ⟨one, other, madeOne, madeOther, alike⟩ | ⟨failure, failedOne, failedOther⟩
    · rw [LayoutOutcome.layout_of_even_ok solver settings _ one chosen someLeft madeOne,
        LayoutOutcome.layout_of_even_ok solver settings _ other chosen someRight madeOther]
      exact checked one other alike .constraint false
    · rw [LayoutOutcome.layout_of_even_error solver settings _ failure chosen someLeft failedOne,
        LayoutOutcome.layout_of_even_error solver settings _ failure chosen someRight failedOther]
      cases settings.onSolverFailure with
      | greedy => exact checked _ _ greedy .greedy true
      | empty => exact checked _ _ empty .constraint true

/-- The bands of a layout, in order, without the events that they belong to. -/
def Layout.bands (layout : Layout) : List (Nat × Nat) :=
  layout.events.map fun band => (band.minLevel, band.maxLevel)

/-- Layouts with the same bands for paired events have the same bands. Twins have the same band on
either side. -/
theorem Layout.Alike.bands_eq (pairs : List (ClippedEvent × ClippedEvent)) (one other : Layout)
    (alike : one.Alike pairs other) : one.bands = other.bands := by
  obtain ⟨-, twins, left, right, -⟩ := alike
  rw [Layout.bands, Layout.bands, left, right, List.map_map, List.map_map]
  rfl

/-- The lists are of the same length, and the events at any two positions overlap in one of them
just if they do in the other. -/
structure SameOverlaps (a b : List ClippedEvent) : Prop where
  length : a.length = b.length
  overlaps : ∀ (i j : Nat) (_ : i < j) (_ : j < a.length),
    Overlaps a[i] a[j] ↔ Overlaps b[i] b[j]

/-- Lists whose events overlap alike have the same pattern when they are paired position by
position. Positions in the paired list are those of the two lists as long as these are of the same
length. -/
theorem sameOverlaps_iff (a b : List ClippedEvent) :
    SameOverlaps a b ↔ a.length = b.length ∧ SamePattern (a.zip b) := by
  rw [SamePattern, List.pairwise_iff_getElem]
  simp only [List.length_zip, List.getElem_zip]
  constructor
  · rintro ⟨length, overlaps⟩
    exact ⟨length, fun i j _ bound ordered => overlaps i j ordered (by omega)⟩
  · rintro ⟨length, overlaps⟩
    exact ⟨length, fun i j ordered bound => overlaps i j (by omega) (by omega) ordered⟩

instance (a b : List ClippedEvent) : Decidable (SameOverlaps a b) :=
  have : Decidable (SamePattern (a.zip b)) := inferInstanceAs (Decidable (List.Pairwise _ _))
  decidable_of_iff _ (sameOverlaps_iff a b).symm

/-- Nothing about the events matters to a layout but which of them overlap. Two lists of the same
length whose events overlap alike at any two positions have the same greedy bands, position by
position, with the same highest level; they ask the same of the even layout, which gives both the
same bands or fails for both with the same error; and whatever the settings, their outcomes come
from the same engine, after the same failure or none, with the same bands and violations. The solver
can be any function of the program that it is given. The two lists are paired position by position,
and each part is read off layouts or outcomes that came about alike. -/
theorem layouts_of_same_overlaps (solver : Solver) (settings : LayoutSettings)
    (a b : List ClippedEvent) (same : SameOverlaps a b) :
    (Greedy.layout a).bands = (Greedy.layout b).bands ∧
    (Greedy.layout a).maxLevel = (Greedy.layout b).maxLevel ∧
    (∀ axis, Bands.Program.ofEvents a axis = Bands.Program.ofEvents b axis) ∧
    (∀ axis, (Bands.layoutWith solver axis a).map Layout.bands =
      (Bands.layoutWith solver axis b).map Layout.bands) ∧
    (computeLayoutWith solver settings a).engine = (computeLayoutWith solver settings b).engine ∧
    (computeLayoutWith solver settings a).fellBack =
      (computeLayoutWith solver settings b).fellBack ∧
    (computeLayoutWith solver settings a).violations =
      (computeLayoutWith solver settings b).violations ∧
    (computeLayoutWith solver settings a).layout.bands =
      (computeLayoutWith solver settings b).layout.bands ∧
    (computeLayoutWith solver settings a).layout.maxLevel =
      (computeLayoutWith solver settings b).layout.maxLevel := by
  obtain ⟨sameLength, pattern⟩ := (sameOverlaps_iff a b).mp same
  have left : (a.zip b).map Prod.fst = a := List.map_fst_zip sameLength.le
  have right : (a.zip b).map Prod.snd = b := List.map_snd_zip sameLength.ge
  have greedy := Greedy.layout_alike (a.zip b) pattern
  have outcome := computeLayoutWith_alike solver settings (a.zip b) pattern
  rw [left, right] at greedy outcome
  refine ⟨greedy.bands_eq, greedy.1, fun axis => ?program, fun axis => ?even, outcome.engine,
    outcome.fellBack, outcome.violations, outcome.layout.bands_eq, outcome.layout.1⟩
  case program =>
    have asked := Bands.ofEvents_congr (a.zip b) pattern axis
    rwa [left, right] at asked
  case even =>
    have made := Bands.layoutWith_alike solver axis (a.zip b) pattern
    rw [left, right] at made
    rcases made with ⟨one, other, madeOne, madeOther, alike⟩ | ⟨failure, failedOne, failedOther⟩
    · rw [madeOne, madeOther]
      exact congrArg Except.ok alike.bands_eq
    · rw [failedOne, failedOther]

/-- Three events, of which the second has no length and the third begins where the first ends, and
three others, of which the second ends before it begins. In both lists the first two overlap and no
others do, so what is known of the layouts of the one list holds of the other. -/
theorem layouts_of_same_overlaps_of_three :
    SameOverlaps [⟨0, 60, 1⟩, ⟨30, 30, 2⟩, ⟨60, 90, 3⟩]
      [⟨0, 100, 4⟩, ⟨50, 40, 5⟩, ⟨200, 300, 6⟩] ∧
    (Greedy.layout [⟨0, 100, 4⟩, ⟨50, 40, 5⟩, ⟨200, 300, 6⟩]).bands = [(0, 0), (1, 1), (0, 1)] ∧
    (Bands.layoutWith Bands.solver 5 [⟨0, 100, 4⟩, ⟨50, 40, 5⟩, ⟨200, 300, 6⟩]).map Layout.bands =
      .ok [(0, 2), (3, 4), (0, 4)] ∧
    (computeLayoutWith Bands.solver ⟨.constraint, .greedy, 5⟩
      [⟨0, 100, 4⟩, ⟨50, 40, 5⟩, ⟨200, 300, 6⟩]).engine = .constraint := by
  have same : SameOverlaps [⟨0, 60, 1⟩, ⟨30, 30, 2⟩, ⟨60, 90, 3⟩]
      [⟨0, 100, 4⟩, ⟨50, 40, 5⟩, ⟨200, 300, 6⟩] := by decide
  have known : (Bands.layoutWith Bands.solver 5
      [⟨0, 60, 1⟩, ⟨30, 30, 2⟩, ⟨60, 90, 3⟩]).map Layout.bands = .ok [(0, 2), (3, 4), (0, 4)] := by
    decide +kernel
  have chosen : (computeLayoutWith Bands.solver ⟨.constraint, .greedy, 5⟩
      [⟨0, 60, 1⟩, ⟨30, 30, 2⟩, ⟨60, 90, 3⟩]).engine = .constraint := by decide +kernel
  obtain ⟨greedy, -, -, even, engine, -⟩ := layouts_of_same_overlaps Bands.solver
    ⟨.constraint, .greedy, 5⟩ _ _ same
  exact ⟨same, greedy.symm, (even 5).symm.trans known, engine.symm.trans chosen⟩

end CalendarDial
