import Mathlib.Data.Finset.Insert
import CalendarDial.Proofs.Bands.Feasibility
import CalendarDial.Proofs.Bands.Parts

/-!
# Groups of events that keep to themselves

A group of events is given by its positions. When none of its events overlaps an event outside, the
program of the group is a part of the program of all events, so an optimum of all events, seen at
the positions of the group, is an optimum of the group. If all events together have a single
optimum, the group has a single one too, and laid out alone it gets the bands that it has among the
others.
-/

namespace CalendarDial.Bands

open Linear (Solver)

/-- The positions of a group among the first ones, as many as asked for, in order. -/
def positionsOf (group : Finset Nat) (count : Nat) : List Nat :=
  (List.range count).filter fun i => i ∈ group

/-- The elements of a list at the positions of a group, in order. -/
def membersOf {α : Type} (group : Finset Nat) (elements : List α) : List α :=
  (positionsOf group elements.length).filterMap fun i => elements[i]?

/-- No event of the group overlaps an event outside. -/
def Apart (group : Finset Nat) (events : List ClippedEvent) : Prop :=
  ∀ (i j : Nat) (a b : ClippedEvent), i ∈ group → j ∉ group → events[i]? = some a →
    events[j]? = some b → ¬ Overlaps a b

/-- A group keeps to itself exactly when no overlapping pair has only one of its events in it.
Overlap does not depend on the order of two events, so a pair that is split either way is an overlap
with the outside. -/
theorem apart_iff (group : Finset Nat) (events : List ClippedEvent) :
    Apart group events ↔
      ∀ i j, (i, j) ∈ positionPairs Overlaps events → (i ∈ group ↔ j ∈ group) := by
  constructor
  · intro apart i j paired
    obtain ⟨-, a, b, first, second, overlap⟩ := mem_positionPairs_iff.mp paired
    constructor
    · intro inside
      by_contra outside
      exact apart i j a b inside outside first second overlap
    · intro inside
      by_contra outside
      exact apart j i b a inside outside second first (overlaps_comm.mp overlap)
  · intro together i j a b inside outside first second overlap
    rcases Nat.lt_trichotomy i j with before | rfl | after
    · exact outside ((together i j (mem_positionPairs_iff.mpr
        ⟨before, a, b, first, second, overlap⟩)).mp inside)
    · exact outside inside
    · exact outside ((together j i (mem_positionPairs_iff.mpr
        ⟨after, b, a, second, first, overlaps_comm.mp overlap⟩)).mpr inside)

instance (group : Finset Nat) (events : List ClippedEvent) : Decidable (Apart group events) :=
  decidable_of_iff
    (∀ pair ∈ positionPairs Overlaps events, (pair.1 ∈ group ↔ pair.2 ∈ group))
    (by rw [apart_iff, Prod.forall])

section Positions

variable (group : Finset Nat) (count : Nat)

/-- The positions of the group that lie among the first ones are all there. -/
theorem mem_positionsOf_iff (i : Nat) : i ∈ positionsOf group count ↔ i < count ∧ i ∈ group := by
  rw [positionsOf, List.mem_filter, List.mem_range, decide_eq_true_iff]

/-- The positions are listed in order. -/
theorem pairwise_positionsOf : (positionsOf group count).Pairwise (· < ·) :=
  List.pairwise_lt_range.filter _

/-- Members stand in the order of their positions. The positions are listed in order and without
repetition, so the order of places is the order of what stands there. -/
theorem lt_iff_of_positionsOf (k l i j : Nat) (first : (positionsOf group count)[k]? = some i)
    (second : (positionsOf group count)[l]? = some j) : k < l ↔ i < j := by
  have forward (m n a b : Nat) (one : (positionsOf group count)[m]? = some a)
      (other : (positionsOf group count)[n]? = some b) (ordered : m < n) : a < b := by
    obtain ⟨boundOne, rfl⟩ := List.getElem?_eq_some_iff.mp one
    obtain ⟨boundOther, rfl⟩ := List.getElem?_eq_some_iff.mp other
    exact List.pairwise_iff_getElem.mp (pairwise_positionsOf group count) m n boundOne boundOther
      ordered
  refine ⟨forward k l i j first second, fun ordered => ?_⟩
  rcases Nat.lt_trichotomy k l with before | rfl | after
  · exact before
  · obtain rfl := Option.some.inj (first.symm.trans second)
    exact absurd ordered (Nat.lt_irrefl i)
  · exact absurd (forward l k j i second first after) (Nat.lt_asymm ordered)

end Positions

/-- A list of values that all exist has each of them at its place. Nothing is dropped on the way, so
no element moves. -/
theorem getElem?_filterMap_of_isSome {α β : Type} (value : α → Option β) (elements : List α)
    (all : ∀ element ∈ elements, (value element).isSome) (k : Nat) :
    (elements.filterMap value)[k]? = elements[k]?.bind value := by
  induction elements generalizing k with
  | nil => rfl
  | cons element elements inductionHypothesis =>
    obtain ⟨here, found⟩ := Option.isSome_iff_exists.mp (all element List.mem_cons_self)
    rw [List.filterMap_cons_some found]
    cases k with
    | zero => exact found.symm
    | succ k =>
      exact inductionHypothesis (fun other present =>
        all other (List.mem_cons_of_mem element present)) k

/-- Each member is the element at its position. Every position of the group lies in the list, so
each of them gives a member. -/
theorem getElem?_membersOf {α : Type} (group : Finset Nat) (elements : List α) (k : Nat) :
    (membersOf group elements)[k]? =
      (positionsOf group elements.length)[k]?.bind fun i => elements[i]? := by
  apply getElem?_filterMap_of_isSome
  intro i present
  obtain ⟨bound, -⟩ := (mem_positionsOf_iff group elements.length i).mp present
  rw [List.getElem?_eq_getElem bound]
  rfl

/-- As many members as positions. Every position of the group lies in the list and gives a
member. -/
theorem length_membersOf {α : Type} (group : Finset Nat) (elements : List α) :
    (membersOf group elements).length = (positionsOf group elements.length).length := by
  rw [membersOf, List.length_filterMap_eq_countP, List.countP_eq_length]
  intro i present
  obtain ⟨bound, -⟩ := (mem_positionsOf_iff group elements.length i).mp present
  rw [List.getElem?_eq_getElem bound]
  rfl

/-- The program of a group that keeps to itself is a part of the program of all events. Overlaps are
kept: two members overlap exactly when the events at their positions do, and members stand in the
order of their positions. -/
theorem part_ofEvents (group : Finset Nat) (events : List ClippedEvent)
    (apart : Apart group events) (axis : Nat) :
    (Program.ofEvents events axis).Part (Program.ofEvents (membersOf group events) axis)
      (positionsOf group events.length) where
  axis := rfl
  count := length_membersOf group events
  distinct := (pairwise_positionsOf group events.length).imp Nat.ne_of_lt
  within i member := ((mem_positionsOf_iff group events.length i).mp member).1
  closed i j paired := by
    obtain ⟨-, _, _, first, second, -⟩ := mem_positionPairs_iff.mp paired
    have boundFirst := (List.getElem?_eq_some_iff.mp first).1
    have boundSecond := (List.getElem?_eq_some_iff.mp second).1
    rw [mem_positionsOf_iff, mem_positionsOf_iff]
    exact and_congr (iff_of_true boundFirst boundSecond)
      ((apart_iff group events).mp apart i j paired)
  pairs k l := by
    simp only [Program.ofEvents, mem_positionPairs_iff, getElem?_membersOf,
      Option.bind_eq_some_iff]
    constructor
    · rintro ⟨ordered, a, b, ⟨i, first, found⟩, ⟨j, second, other⟩, overlap⟩
      have order := lt_iff_of_positionsOf group events.length k l i j first second
      exact ⟨i, j, first, second, order.mp ordered, a, b, found, other, overlap⟩
    · rintro ⟨i, j, first, second, ordered, a, b, found, other, overlap⟩
      have order := lt_iff_of_positionsOf group events.length k l i j first second
      exact ⟨order.mpr ordered, a, b, ⟨i, first, found⟩, ⟨j, second, other⟩, overlap⟩
  once := nodup_positionPairs Overlaps events
  oncePart := nodup_positionPairs Overlaps (membersOf group events)
  inRange := Program.inRange_ofEvents (membersOf group events) axis

/-- The bands of a group at a point are those that its members have among all events. A band depends
on its event and on the position it is read from, and both are the same on the two sides. -/
theorem roundBands_membersOf (group : Finset Nat) (axis : Nat) (x : Point)
    (events : List ClippedEvent) :
    roundBands axis (x.only (positionsOf group events.length)) (membersOf group events) =
      membersOf group (roundBands axis x events) := by
  have length : (roundBands axis x events).length = events.length := List.length_mapIdx
  apply List.ext_getElem?
  intro k
  rw [getElem?_membersOf, length, roundBands, List.getElem?_mapIdx, getElem?_membersOf]
  cases found : (positionsOf group events.length)[k]? with
  | none => rfl
  | some i =>
    obtain ⟨starts, sizes⟩ := Point.only_at _ x k i found
    simp only [Option.bind_some, roundBands, List.getElem?_mapIdx, starts, sizes]

/-- A group of events none of which overlaps an event outside is laid out as if the others were not
there. The bands that an optimal point for all events gives to the group are optimal for the group
alone. If only one point is optimal for all events, as far as they go, every solver that refuses
contradictions only, reports numbers and minimises lays out all events and the group alone, and
gives every event of the group the same band in both layouts. -/
theorem layoutWith_of_group (solver : Solver) (refuses : solver.RefusesContradictions)
    (numbers : solver.ReportsNumbers) (minimises : solver.Minimises) (axis : Nat)
    (events : List ClippedEvent) (group : Finset Nat) (apart : Apart group events) :
    (∀ x, (Program.ofEvents events axis).Optimal x →
      (Program.ofEvents (membersOf group events) axis).Optimal
        (x.only (positionsOf group events.length))) ∧
    ((∃ x, (Program.ofEvents events axis).Optimal x ∧
        ∀ y, (Program.ofEvents events axis).Optimal y → x.SameUpTo events.length y) →
      ∃ whole part, layoutWith solver axis events = .ok whole ∧
        layoutWith solver axis (membersOf group events) = .ok part ∧
        part.events = membersOf group whole.events ∧ part.maxLevel = whole.maxLevel) := by
  have isPart := part_ofEvents group events apart axis
  have inRange := Program.inRange_ofEvents events axis
  refine ⟨fun x optimal => isPart.optimal_only x optimal, ?_⟩
  rintro ⟨x, optimal, unique⟩
  obtain ⟨y, solved⟩ := Program.solveWith_of_feasible solver refuses numbers _ inRange x optimal.1
  obtain ⟨z, solvedPart⟩ := Program.solveWith_of_feasible solver refuses numbers _ isPart.inRange _
    (isPart.feasible_only x optimal.1)
  have same := unique y (Program.optimal_of_solveWith_eq_ok solver minimises _ inRange y solved)
  have samePart := isPart.sameUpTo_only_of_unique x z optimal unique
    (Program.optimal_of_solveWith_eq_ok solver minimises _ isPart.inRange z solvedPart)
  rw [← length_membersOf] at samePart
  refine ⟨⟨roundBands axis x events, axis⟩, ⟨membersOf group (roundBands axis x events), axis⟩,
    ?_, ?_, rfl, rfl⟩
  · exact (layoutWith_eq_ok_iff solver axis events _).mpr
      ⟨y, solved, by rw [roundBands_congr axis x y events same]⟩
  · refine (layoutWith_eq_ok_iff solver axis _ _).mpr ⟨z, solvedPart, ?_⟩
    rw [← roundBands_congr axis _ z _ samePart, roundBands_membersOf]

/-- The first and the last of three events overlap and keep to themselves. Each of the two groups is
a chain, so its optimum is the even split of the axis. The bands of an optimal point are therefore
known at the positions of either group, and all events together have a single optimum. The group of
two, laid out alone with the solver that is used, gets the bands that it has among all events. -/
theorem layoutWith_of_group_of_two :
    Apart {0, 2} [⟨0, 60, 1⟩, ⟨100, 160, 2⟩, ⟨30, 90, 3⟩] ∧
    (∃ x, (Program.ofEvents [⟨0, 60, 1⟩, ⟨100, 160, 2⟩, ⟨30, 90, 3⟩] 10).Optimal x ∧
      ∀ y, (Program.ofEvents [⟨0, 60, 1⟩, ⟨100, 160, 2⟩, ⟨30, 90, 3⟩] 10).Optimal y →
        x.SameUpTo 3 y) ∧
    layoutWith solver 10 [⟨0, 60, 1⟩, ⟨100, 160, 2⟩, ⟨30, 90, 3⟩] =
      .ok ⟨[⟨⟨0, 60, 1⟩, 0, 4⟩, ⟨⟨100, 160, 2⟩, 0, 9⟩, ⟨⟨30, 90, 3⟩, 5, 9⟩], 10⟩ ∧
    layoutWith solver 10 [⟨0, 60, 1⟩, ⟨30, 90, 3⟩] =
      .ok ⟨[⟨⟨0, 60, 1⟩, 0, 4⟩, ⟨⟨30, 90, 3⟩, 5, 9⟩], 10⟩ := by
  have refuses := Linear.exactSolver_refusesContradictions advice
  have numbers := Linear.exactSolver_reportsNumbers advice
  have minimises : solver.Minimises := Linear.exactSolver_minimises advice
  have made : layoutWith solver 10 [⟨0, 60, 1⟩, ⟨100, 160, 2⟩, ⟨30, 90, 3⟩] =
      .ok ⟨[⟨⟨0, 60, 1⟩, 0, 4⟩, ⟨⟨100, 160, 2⟩, 0, 9⟩, ⟨⟨30, 90, 3⟩, 5, 9⟩], 10⟩ := by
    decide +kernel
  have apart : Apart {0, 2} [⟨0, 60, 1⟩, ⟨100, 160, 2⟩, ⟨30, 90, 3⟩] := by decide
  obtain ⟨pair, together⟩ := layoutWith_of_group solver refuses numbers minimises 10
    [⟨0, 60, 1⟩, ⟨100, 160, 2⟩, ⟨30, 90, 3⟩] {0, 2} apart
  obtain ⟨single, -⟩ := layoutWith_of_group solver refuses numbers minimises 10
    [⟨0, 60, 1⟩, ⟨100, 160, 2⟩, ⟨30, 90, 3⟩] {1} (by decide)
  have known (y : Point)
      (optimal : (Program.ofEvents [⟨0, 60, 1⟩, ⟨100, 160, 2⟩, ⟨30, 90, 3⟩] 10).Optimal y) :
      (y.only [0, 2]).SameUpTo 2 (evenSplit 10 2) ∧ (y.only [1]).SameUpTo 1 (evenSplit 10 1) :=
    ⟨(Program.optimal_iff_evenSplit _ (Program.inRange_ofEvents _ 10)
      (Program.chained_ofEvents [⟨0, 60, 1⟩, ⟨30, 90, 3⟩] 10 (by decide)) (by decide) (by decide)
      _).mp (pair y optimal),
    (Program.optimal_iff_evenSplit _ (Program.inRange_ofEvents _ 10)
      (Program.chained_ofEvents [⟨100, 160, 2⟩] 10 (by decide)) (by decide) (by decide)
      _).mp (single y optimal)⟩
  obtain ⟨x, solved, -⟩ := (layoutWith_eq_ok_iff solver 10 _ _).mp made
  have optimal := Program.optimal_of_solveWith_eq_ok solver minimises _
    (Program.inRange_ofEvents _ 10) x solved
  have unique (y : Point)
      (also : (Program.ofEvents [⟨0, 60, 1⟩, ⟨100, 160, 2⟩, ⟨30, 90, 3⟩] 10).Optimal y) :
      x.SameUpTo 3 y := by
    obtain ⟨ends, middle⟩ := known x optimal
    obtain ⟨endsAlso, middleAlso⟩ := known y also
    intro i bound
    obtain rfl | rfl | rfl : i = 0 ∨ i = 1 ∨ i = 2 := by omega
    · exact ends.trans endsAlso.symm 0 (by decide)
    · exact middle.trans middleAlso.symm 0 (by decide)
    · exact ends.trans endsAlso.symm 1 (by decide)
  obtain ⟨whole, part, wholeMade, partMade, events, highest⟩ := together ⟨x, optimal, unique⟩
  obtain rfl := Except.ok.inj (wholeMade.symm.trans made)
  obtain ⟨_, _⟩ := part
  cases events
  cases highest
  exact ⟨apart, ⟨x, optimal, unique⟩, made, partMade⟩

end CalendarDial.Bands
