import CalendarDial.Event

/-!
# Placing events greedily

Events are placed one at a time. Each takes the first run of levels that no placed event
overlapping it uses. When every level up to the present top is used, a new top level is opened for
the event, and the placed events that reach the old top and do not overlap the newcomer are widened
onto it.

Placing always succeeds, and no level is opened without being filled.
-/

namespace CalendarDial.Greedy

/-- The events placed so far, in order, and the highest level in use. -/
structure Board where
  placed : List LeveledEvent
  top : Nat

/-- The board before the first event. -/
def Board.empty : Board := ⟨[], 0⟩

/-- The levels that are taken where `event` is to go, in the order in which they are marked: band by
band those of the placed events that overlap it, and the level past the top. -/
def takenLevels (board : Board) (event : ClippedEvent) : List Nat :=
  (board.placed.filter fun previous => Overlaps previous event).flatMap LeveledEvent.levels ++
    [board.top + 1]

/-- Sets the mark of each of the levels. `List.set` leaves the marks alone where a level has none,
so that it has to be shown of the levels that each of them has its mark. -/
def markAll (marks : List Bool) (levels : List Nat) : List Bool :=
  levels.foldl (fun marks level => marks.set level true) marks

/-- One mark for each level from zero to the top and one more past the top, set for the levels that
are taken. The last mark is always set and ends every search for a hole. -/
def forbiddenLevels (board : Board) (event : ClippedEvent) : List Bool :=
  markAll (List.replicate (board.top + 2) false) (takenLevels board event)

/-- The first run of unset marks, as its first and last position. -/
def findHole (marks : List Bool) : Option (Nat × Nat) := do
  let start ← marks.findIdx? (!·)
  let width := ((marks.drop start).takeWhile (!·)).length
  pure (start, start + width - 1)

/-- A placed event after the level above the top has been opened for `event`: widened onto the new
level if it reaches the old top and does not overlap `event`. -/
def widen (top : Nat) (event : ClippedEvent) (previous : LeveledEvent) : LeveledEvent :=
  if previous.maxLevel = top ∧ ¬ Overlaps previous event then
    { previous with maxLevel := top + 1 }
  else
    previous

/-- Places one more event. The first event of all takes level zero. -/
def Board.place (board : Board) (event : ClippedEvent) : Board :=
  match board.placed with
  | [] => ⟨[⟨event, 0, 0⟩], board.top⟩
  | _ =>
    match findHole (forbiddenLevels board event) with
    | some (minLevel, maxLevel) => ⟨board.placed ++ [⟨event, minLevel, maxLevel⟩], board.top⟩
    | none =>
      let newTop := board.top + 1
      ⟨board.placed.map (widen board.top event) ++ [⟨event, newTop, newTop⟩], newTop⟩

/-- The board after all the events have been placed in the order given. -/
def board (events : List ClippedEvent) : Board := events.foldl Board.place Board.empty

/-- The greedy layout: every event with its band, and the highest level in use. -/
def layout (events : List ClippedEvent) : Layout :=
  let final := board events
  ⟨final.placed, final.top⟩

end CalendarDial.Greedy
