import Mathlib.Algebra.Group.Nat.Defs
import CalendarDial.Proofs.Greedy.Board

/-!
# Counting levels

While events are placed, levels are counted and marks are looked up by level. No more levels are
opened than there are events, so a counter of 32 bits holds them if it holds the number of events.
Every level of a band on the board has its mark, and a hole lies among the marks.

Within these limits the search for a hole does what it is meant to do, whichever event is placed: it
marks the levels in the way of the event and no others, and finds the first run of the levels that
are left, if any are.
-/

namespace CalendarDial.Greedy

namespace Board

/-- What is counted and looked up when one more event is placed stays within its limits: the level
above the top fits into 32 bits, every level of a band has its mark, and a hole is a run of levels
up to the top. -/
structure InBounds (board : Board) (event : ClippedEvent) : Prop where
  next : board.top + 1 < 2 ^ 32
  marked : ∀ band ∈ board.placed, ∀ level, band.Covers level →
    level < (forbiddenLevels board event).length
  found : ∀ lo hi, findHole (forbiddenLevels board event) = some (lo, hi) →
    lo ≤ hi ∧ hi ≤ board.top

/-- No more levels have been opened than events placed. Every level above zero was opened for an
event of its own, and there is a band on the board for each event. -/
theorem Sound.top_le (events : List ClippedEvent) (board : Board) (sound : Sound events board) :
    board.top ≤ events.length := by
  have length := sound.length_placed
  have filled := sound.filled
  omega

/-- Whenever an event of a list of fewer than two to the thirty-second is placed, everything stays
within its limits. The board holds the earlier events, so its top is at most their number, which is
less than that of the whole list. Bands end at the top or below it, where there are marks, and so
does every hole. -/
theorem inBounds_board (earlier : List ClippedEvent) (event : ClippedEvent)
    (later : List ClippedEvent) (few : (earlier ++ event :: later).length < 2 ^ 32) :
    (Greedy.board earlier).InBounds event := by
  have sound := sound_board earlier
  refine ⟨?_, fun band present level covers => ?_, fun lo hi found => ?_⟩
  · have top := sound.top_le earlier
    rw [List.length_append, List.length_cons] at few
    omega
  · have bounded : band.maxLevel ≤ (Greedy.board earlier).top := sound.valid.bounded band present
    rw [length_forbiddenLevels]
    have upper := covers.2
    omega
  · have hole := hole_of_findHole _ event lo hi found
    exact ⟨hole.ordered, hole.within⟩

/-- What the search for a hole does when one more event is placed. Besides staying within its limits
it marks no level that has no mark, and exactly the levels in its way. It finds a hole whenever a
level up to the top is left, namely the first run of such levels in full length. -/
structure ExactSearch (board : Board) (event : ClippedEvent) : Prop extends
    InBounds board event where
  /-- There is one mark for each level up to the top and one more. -/
  size : (forbiddenLevels board event).length = board.top + 2
  /-- Every level that is marked on the way has its mark. -/
  stored : ∀ level ∈ takenLevels board event, level < (forbiddenLevels board event).length
  /-- The level past the top is marked, and so are those in the bands of the placed events that
  overlap the newcomer, and no others. -/
  marked_iff : ∀ level ≤ board.top + 1, (forbiddenLevels board event)[level]? = some true ↔
    level = board.top + 1 ∨
      ∃ previous ∈ board.placed, Overlaps previous event ∧ previous.Covers level
  /-- A hole is found exactly when a level up to the top is left unmarked. -/
  found_iff : (∃ lo hi, findHole (forbiddenLevels board event) = some (lo, hi)) ↔
    ∃ level ≤ board.top, (forbiddenLevels board event)[level]? = some false
  /-- A hole is the first run of unmarked levels, in full length. -/
  run_iff : ∀ lo hi, findHole (forbiddenLevels board event) = some (lo, hi) ↔
    FirstRun (forbiddenLevels board event) lo hi
  /-- The level after a hole is marked. -/
  ended : ∀ lo hi, findHole (forbiddenLevels board event) = some (lo, hi) →
    (forbiddenLevels board event)[hi + 1]? = some true
  /-- Both ends of the hole are the same in 32 bits. -/
  lossless : ∀ lo hi, findHole (forbiddenLevels board event) = some (lo, hi) →
    (UInt32.ofNat lo).toNat = lo ∧ (UInt32.ofNat hi).toNat = hi

/-- A search that stays within its limits is exact, as long as no band reaches above the top. The
marks are those of the taken levels, and the last of them is set, so a run ends before it. Its ends
are at most the top, which 32 bits hold with one to spare. -/
theorem exactSearch_of_inBounds (board : Board) (event : ClippedEvent)
    (inBounds : board.InBounds event) (bounded : ∀ band ∈ board.placed, band.maxLevel ≤ board.top) :
    board.ExactSearch event := by
  refine ⟨inBounds, length_forbiddenLevels board event, fun level taken => ?_,
    forbiddenLevels_set_iff board event, ?_, findHole_eq_some_iff _, fun lo hi found => ?_,
    fun lo hi found => ?_⟩
  · rw [length_forbiddenLevels]
    exact Nat.lt_succ_of_le (le_of_mem_takenLevels board event bounded level taken)
  · have within (level : Nat) (unset : (forbiddenLevels board event)[level]? = some false) :
        level ≤ board.top := ((forbiddenLevels_unset_iff board event level).mp unset).1
    rw [exists_findHole_iff]
    exact exists_congr fun level => ⟨fun unset => ⟨within level unset, unset⟩, And.right⟩
  · exact marked_past_hole board event lo hi (hole_of_findHole board event lo hi found)
  · have fits : board.top < UInt32.size := Nat.lt_of_succ_lt inBounds.next
    obtain ⟨ordered, within⟩ := inBounds.found lo hi found
    exact ⟨UInt32.toNat_ofNat_of_lt' (Nat.lt_of_le_of_lt (Nat.le_trans ordered within) fits),
      UInt32.toNat_ofNat_of_lt' (Nat.lt_of_le_of_lt within fits)⟩

/-- Whenever an event of a list of fewer than two to the thirty-second is placed, the search for a
hole is exact and stays within its limits. No band reaches above the top when the search begins,
also after bands have been widened, so that every level that is marked has its mark. Both conditions
hold of every board on the way: the limits because the events are few, and the bound on bands
because the board is sound. -/
theorem exactSearch_board (earlier : List ClippedEvent) (event : ClippedEvent)
    (later : List ClippedEvent) (few : (earlier ++ event :: later).length < 2 ^ 32) :
    (Greedy.board earlier).ExactSearch event :=
  exactSearch_of_inBounds _ event (inBounds_board earlier event later few)
    (sound_board earlier).valid.bounded

/-- Five events are on three levels, the fourth of them widened over all three. The sixth overlaps
the first alone, which is on level zero, and the search finds the two levels above. -/
theorem exactSearch_board_of_six :
    ([⟨0, 60, 1⟩, ⟨100, 200, 2⟩, ⟨50, 150, 3⟩, ⟨300, 400, 4⟩, ⟨120, 130, 5⟩, ⟨10, 20, 6⟩] :
      List ClippedEvent).length < 2 ^ 32 ∧
    forbiddenLevels (Greedy.board [⟨0, 60, 1⟩, ⟨100, 200, 2⟩, ⟨50, 150, 3⟩, ⟨300, 400, 4⟩,
      ⟨120, 130, 5⟩]) ⟨10, 20, 6⟩ = [true, false, false, true] ∧
    FirstRun [true, false, false, true] 1 2 ∧
    (Greedy.board [⟨0, 60, 1⟩, ⟨100, 200, 2⟩, ⟨50, 150, 3⟩, ⟨300, 400, 4⟩,
      ⟨120, 130, 5⟩]).ExactSearch ⟨10, 20, 6⟩ := by
  have marks : forbiddenLevels (Greedy.board [⟨0, 60, 1⟩, ⟨100, 200, 2⟩, ⟨50, 150, 3⟩,
      ⟨300, 400, 4⟩, ⟨120, 130, 5⟩]) ⟨10, 20, 6⟩ = [true, false, false, true] := by decide
  have search := exactSearch_board [⟨0, 60, 1⟩, ⟨100, 200, 2⟩, ⟨50, 150, 3⟩, ⟨300, 400, 4⟩,
    ⟨120, 130, 5⟩] ⟨10, 20, 6⟩ [] (by decide)
  have run := (search.run_iff 1 2).mp (by rw [marks]; rfl)
  exact ⟨by decide, marks, marks ▸ run, search⟩

end Board

end CalendarDial.Greedy
