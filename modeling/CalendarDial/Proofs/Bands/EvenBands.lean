import CalendarDial.Proofs.Bands.EvenSplit
import CalendarDial.Proofs.Bands.Feasibility
import CalendarDial.Proofs.Bands.Separation

/-!
# The bands of a chain

The parts of an axis that is split evenly are shown in whole levels by rounding the cuts between
them. Each band ends right below the next one, because both ends come from the same cut, and the
first and the last cut are the ends of the axis. So every level of the axis belongs to one band. No
band is thicker than another by more than a level, for all parts are steps of the same size and are
rounded in the same way wherever they are taken.

A solver that refuses contradictions only and minimises shows these bands whenever every event
overlaps the next one, since the even split is then the only optimum.
-/

namespace CalendarDial.Bands

open Linear (Solver)

/-- Where the axis is cut below the event at a position, as a level. -/
def cut (axis count i : Nat) : Nat := toLevel axis (i * axis / count)

/-- The level lies between the cut below the event at a position and the next one. -/
def InPart (axis count i level : Nat) : Prop :=
  cut axis count i ≤ level ∧ level < cut axis count (i + 1)

/-- The events with the bands between the cuts of an axis that is split evenly among them. -/
def evenBands (axis : Nat) (events : List ClippedEvent) : List LeveledEvent :=
  events.mapIdx fun i event =>
    ⟨event, cut axis events.length i, cut axis events.length (i + 1) - 1⟩

/-- The bands are stacked from the bottom of an axis to its top: each is the right way up and ends
right below the next one, they share out all levels of the axis, and none is thicker than another by
more than one level. -/
structure Stacked (axis : Nat) (bands : List LeveledEvent) : Prop where
  ordered : ∀ band ∈ bands, band.minLevel ≤ band.maxLevel
  contiguous : bands.IsChain fun lower upper => upper.minLevel = lower.maxLevel + 1
  within : ∀ band ∈ bands, band.maxLevel < axis
  covered : ∀ level < axis,
    ∃! i : Nat, ∃ band : LeveledEvent, bands[i]? = some band ∧ band.Covers level
  alike : ∀ band ∈ bands, ∀ other ∈ bands,
    band.maxLevel - band.minLevel ≤ other.maxLevel - other.minLevel + 1

section Cuts

variable (axis count : Nat)

/-- Nothing has to be confined: a cut is the level nearest to the start of a part. The starts of the
parts lie on the axis, where confining changes no level. -/
theorem cut_eq_nearestLevel (some : 0 < count) (i : Nat) (within : i ≤ count) :
    (cut axis count i : Int) = nearestLevel ((evenSplit axis count).start i) :=
  toLevel_eq_nearestLevel axis _ (evenSplit.start_nonneg axis count i)
    (evenSplit.start_le_axis axis count some i within)

/-- The first cut is the bottom of the axis. The first part starts at zero, which is rounded to
itself. -/
theorem cut_zero (some : 0 < count) : cut axis count 0 = 0 := by
  have rounded := cut_eq_nearestLevel axis count some 0 (Nat.zero_le count)
  rw [evenSplit.start_zero] at rounded
  exact Int.ofNat.inj (rounded.trans (nearestLevel_natCast 0))

/-- The cut after the last part is the top of the axis. The start after the last part is the length
of the axis, a whole number that is rounded to itself. -/
theorem cut_count (some : 0 < count) : cut axis count count = axis := by
  have rounded := cut_eq_nearestLevel axis count some count (Nat.le_refl count)
  rw [evenSplit.start_count axis count some] at rounded
  exact Int.ofNat.inj (rounded.trans (nearestLevel_natCast axis))

/-- Later cuts are not below earlier ones. The starts of the parts rise, and rounding within the
axis never reverses an order. -/
theorem cut_le (some : 0 < count) (i j : Nat) (ordered : i ≤ j) (within : j ≤ count) :
    cut axis count i ≤ cut axis count j :=
  toLevel_le axis _ _ (evenSplit.start_nonneg axis count i)
    (evenSplit.start_le axis count i j ordered)
    (evenSplit.start_le_axis axis count some j within)

/-- Between a cut and the next one there is a level when every event can have one of its own. Each
part is then at least one level thick, and rounding leaves such a part at least a level. -/
theorem cut_lt_succ (some : 0 < count) (room : count ≤ axis) (i : Nat) (bound : i < count) :
    cut axis count i < cut axis count (i + 1) := by
  have covers := toLevel_start_lt_end axis _ _ (evenSplit.start_nonneg axis count i)
    (evenSplit.one_le_size axis count some room i)
    (evenSplit.start_add_size_le_axis axis count some i bound)
  rwa [evenSplit.start_add_size] at covers

/-- No part gets two levels more than another. All parts are one step of the same size, and steps of
the same size raise the nearest level by numbers that differ by one at most. -/
theorem cut_step_le (some : 0 < count) (i j : Nat) (first : i < count) (second : j < count) :
    cut axis count (i + 1) + cut axis count j ≤ cut axis count (j + 1) + cut axis count i + 1 := by
  have forward : (0 : Rat) ≤ axis / count := div_nonneg (Nat.cast_nonneg _) (Nat.cast_nonneg _)
  have close := nearestLevel_step_le _ _ _ (evenSplit.start_nonneg axis count i)
    (evenSplit.start_nonneg axis count j) forward
  have ends (k : Nat) : (evenSplit axis count).start k + axis / count =
      (evenSplit axis count).start (k + 1) := evenSplit.start_add_size axis count k
  rw [ends, ends, ← cut_eq_nearestLevel axis count some (i + 1) first,
    ← cut_eq_nearestLevel axis count some (j + 1) second,
    ← cut_eq_nearestLevel axis count some i (Nat.le_of_lt first),
    ← cut_eq_nearestLevel axis count some j (Nat.le_of_lt second)] at close
  omega

/-- Every level below some cut lies in some part below it. It is the part below the first cut that
the level lies under, found by going up from the bottom cut by cut. -/
theorem exists_inPart (some : 0 < count) (level k : Nat) (below : level < cut axis count k) :
    ∃ i < k, InPart axis count i level := by
  induction k with
  | zero =>
    rw [cut_zero axis count some] at below
    exact absurd below (Nat.not_lt_zero level)
  | succ k inductionHypothesis =>
    by_cases lower : level < cut axis count k
    · obtain ⟨i, earlier, inside⟩ := inductionHypothesis lower
      exact ⟨i, Nat.lt_succ_of_lt earlier, inside⟩
    · exact ⟨k, Nat.lt_succ_self k, Nat.le_of_not_lt lower, below⟩

/-- No level lies in two parts. Of two different parts the lower one ends at or below the cut where
the other one starts. -/
theorem InPart.unique (some : 0 < count) (level i j : Nat) (first : i < count) (second : j < count)
    (here : InPart axis count i level) (there : InPart axis count j level) : i = j := by
  obtain ⟨lowerHere, upperHere⟩ := here
  obtain ⟨lowerThere, upperThere⟩ := there
  rcases Nat.lt_trichotomy i j with before | same | after
  · have apart := cut_le axis count some (i + 1) j before (Nat.le_of_lt second)
    omega
  · exact same
  · have apart := cut_le axis count some (j + 1) i after (Nat.le_of_lt first)
    omega

end Cuts

/-- The band at a position starts at a cut and ends right below the next one. The band covers at
least one level, so taking one off the upper cut loses nothing. -/
theorem levels_of_evenBands (axis : Nat) (events : List ClippedEvent)
    (room : events.length ≤ axis) (i : Nat) (band : LeveledEvent)
    (found : (evenBands axis events)[i]? = some band) :
    i < events.length ∧ band.minLevel = cut axis events.length i ∧
      band.maxLevel + 1 = cut axis events.length (i + 1) := by
  rw [evenBands, List.getElem?_mapIdx, Option.map_eq_some_iff] at found
  obtain ⟨event, present, rfl⟩ := found
  have bound : i < events.length := (List.getElem?_eq_some_iff.mp present).1
  have covers := cut_lt_succ axis events.length (Nat.zero_lt_of_lt bound) room i bound
  exact ⟨bound, rfl, Nat.sub_add_cancel (Nat.zero_lt_of_lt covers)⟩

/-- The band at a position covers the levels of its part. Ending right below the next cut is the
same as lying below that cut. -/
theorem covers_iff_inPart (axis : Nat) (events : List ClippedEvent) (room : events.length ≤ axis)
    (i : Nat) (band : LeveledEvent) (found : (evenBands axis events)[i]? = some band)
    (level : Nat) : band.Covers level ↔ InPart axis events.length i level := by
  obtain ⟨-, start, finish⟩ := levels_of_evenBands axis events room i band found
  rw [LeveledEvent.Covers, InPart, ← start, ← finish, Nat.lt_succ_iff]

/-- Every level of the axis is covered by the band at a single position. The last cut is the end of
the axis, so the level lies in some part, and no level lies in two. -/
theorem existsUnique_covers (axis : Nat) (events : List ClippedEvent) (nonempty : events ≠ [])
    (room : events.length ≤ axis) (level : Nat) (within : level < axis) :
    ∃! i : Nat, ∃ band : LeveledEvent,
      (evenBands axis events)[i]? = some band ∧ band.Covers level := by
  have size : 0 < events.length := List.length_pos_iff.mpr nonempty
  have below : level < cut axis events.length events.length :=
    within.trans_eq (cut_count axis events.length size).symm
  obtain ⟨i, bound, inside⟩ := exists_inPart axis events.length size level events.length below
  have present : i < (evenBands axis events).length := by rwa [evenBands, List.length_mapIdx]
  have found := List.getElem?_eq_getElem present
  refine ⟨i, ⟨_, found, (covers_iff_inPart axis events room i _ found level).mpr inside⟩, ?_⟩
  rintro j ⟨band, other, covers⟩
  obtain ⟨boundOther, -, -⟩ := levels_of_evenBands axis events room j band other
  exact InPart.unique axis events.length size level j i boundOther bound
    ((covers_iff_inPart axis events room j band other level).mp covers) inside

/-- The even bands are stacked when every event can have a level of its own. Two neighbours share
the cut between them, the cuts run from the bottom of the axis to its top, and no step between cuts
exceeds another by more than one level. -/
theorem stacked_evenBands (axis : Nat) (events : List ClippedEvent) (some : events ≠ [])
    (room : events.length ≤ axis) : Stacked axis (evenBands axis events) := by
  have size : 0 < events.length := List.length_pos_iff.mpr some
  have levels := levels_of_evenBands axis events room
  constructor
  case ordered =>
    intro band present
    obtain ⟨i, found⟩ := List.mem_iff_getElem?.mp present
    obtain ⟨bound, start, finish⟩ := levels i band found
    have covers := cut_lt_succ axis events.length size room i bound
    omega
  case contiguous =>
    rw [List.isChain_iff_getElem]
    intro i bound
    obtain ⟨-, -, finish⟩ := levels i _ (List.getElem?_eq_getElem (Nat.lt_of_succ_lt bound))
    obtain ⟨-, start, -⟩ := levels (i + 1) _ (List.getElem?_eq_getElem bound)
    exact start.trans finish.symm
  case within =>
    intro band present
    obtain ⟨i, found⟩ := List.mem_iff_getElem?.mp present
    obtain ⟨bound, start, finish⟩ := levels i band found
    have highest : cut axis events.length (i + 1) ≤ axis := toLevel_le_axis axis _
    omega
  case covered => exact existsUnique_covers axis events some room
  case alike =>
    intro band present other another
    obtain ⟨i, found⟩ := List.mem_iff_getElem?.mp present
    obtain ⟨j, again⟩ := List.mem_iff_getElem?.mp another
    obtain ⟨first, start, finish⟩ := levels i band found
    obtain ⟨second, begin, limit⟩ := levels j other again
    have close := cut_step_le axis events.length size i j first second
    have ordered := cut_lt_succ axis events.length size room j second
    omega

/-- The even split is shown by the even bands. The end of a part is the start of the next, so both
levels of a band come from cuts, and the corrections of rounding change nothing on a part at least
one level thick. -/
theorem roundBands_evenSplit (axis : Nat) (events : List ClippedEvent)
    (room : events.length ≤ axis) :
    roundBands axis (evenSplit axis events.length) events = evenBands axis events := by
  apply List.ext_getElem?
  intro i
  rw [roundBands, evenBands, List.getElem?_mapIdx, List.getElem?_mapIdx]
  apply Option.map_congr
  intro event found
  have bound : i < events.length := (List.getElem?_eq_some_iff.mp found).1
  have some : 0 < events.length := Nat.zero_lt_of_lt bound
  rw [levelsOf_eq axis _ _ (evenSplit.start_nonneg axis events.length i)
    (evenSplit.one_le_size axis events.length some room i)
    (evenSplit.start_add_size_le_axis axis events.length some i bound), evenSplit.start_add_size]
  rfl

/-- Events that each overlap the next one, on an axis with a level for every one of them. The
program has a single optimum, which splits the axis evenly in the order of the events. Every solver
that refuses contradictions only, reports numbers and minimises therefore makes the layout with the
rounded bands of this split: from the bottom of the axis to its top each ends right below the next
one, every level belongs to one of them, and their thicknesses differ by one level at most. -/
theorem layoutWith_of_chain (solver : Solver) (refuses : solver.RefusesContradictions)
    (numbers : solver.ReportsNumbers) (minimises : solver.Minimises) (axis : Nat)
    (events : List ClippedEvent) (some : events ≠ [])
    (chained : events.IsChain fun a b => Overlaps a b) (room : events.length ≤ axis) :
    (∀ x, (Program.ofEvents events axis).Optimal x ↔
      x.SameUpTo events.length (evenSplit axis events.length)) ∧
    layoutWith solver axis events = .ok ⟨evenBands axis events, axis⟩ ∧
    Stacked axis (evenBands axis events) := by
  have size : 0 < events.length := List.length_pos_iff.mpr some
  have inRange := Program.inRange_ofEvents events axis
  have only : ∀ x, (Program.ofEvents events axis).Optimal x ↔
      x.SameUpTo events.length (evenSplit axis events.length) :=
    Program.optimal_iff_evenSplit _ inRange (Program.chained_ofEvents events axis chained) size room
  refine ⟨only, ?_, stacked_evenBands axis events some room⟩
  obtain ⟨x, solved⟩ := Program.solveWith_of_feasible solver refuses numbers _ inRange _
    (Program.feasible_evenSplit _ inRange size room)
  have same := (only x).mp (Program.optimal_of_solveWith_eq_ok solver minimises _ inRange x solved)
  refine (layoutWith_eq_ok_iff solver axis events _).mpr ⟨x, solved, ?_⟩
  rw [roundBands_congr axis x _ events same, roundBands_evenSplit axis events room]

/-- Three events in a chain share an axis of ten levels. The solver that is used gives the one in
the middle the level that is left over. -/
theorem layoutWith_of_chain_of_three :
    evenBands 10 [⟨0, 60, 1⟩, ⟨30, 90, 2⟩, ⟨70, 100, 3⟩] =
        [⟨⟨0, 60, 1⟩, 0, 2⟩, ⟨⟨30, 90, 2⟩, 3, 6⟩, ⟨⟨70, 100, 3⟩, 7, 9⟩] ∧
      layoutWith solver 10 [⟨0, 60, 1⟩, ⟨30, 90, 2⟩, ⟨70, 100, 3⟩] =
        .ok ⟨[⟨⟨0, 60, 1⟩, 0, 2⟩, ⟨⟨30, 90, 2⟩, 3, 6⟩, ⟨⟨70, 100, 3⟩, 7, 9⟩], 10⟩ ∧
      Stacked 10 [⟨⟨0, 60, 1⟩, 0, 2⟩, ⟨⟨30, 90, 2⟩, 3, 6⟩, ⟨⟨70, 100, 3⟩, 7, 9⟩] := by
  have bands : evenBands 10 [⟨0, 60, 1⟩, ⟨30, 90, 2⟩, ⟨70, 100, 3⟩] =
      [⟨⟨0, 60, 1⟩, 0, 2⟩, ⟨⟨30, 90, 2⟩, 3, 6⟩, ⟨⟨70, 100, 3⟩, 7, 9⟩] := by decide +kernel
  obtain ⟨-, made, stacked⟩ := layoutWith_of_chain solver
    (Linear.exactSolver_refusesContradictions advice) (Linear.exactSolver_reportsNumbers advice)
    (Linear.exactSolver_minimises advice) 10 [⟨0, 60, 1⟩, ⟨30, 90, 2⟩, ⟨70, 100, 3⟩] (by decide)
    (by decide) (by decide)
  rw [bands] at made stacked
  exact ⟨bands, made, stacked⟩

end CalendarDial.Bands
