import Mathlib.Data.List.Induction
import CalendarDial.Proofs.Greedy.Holes
import CalendarDial.Proofs.Violation

/-!
# The greedy layout is valid

Placing an event does one of three things: it opens the board, fills a hole, or opens a new level
above the top. Each of them keeps the events in order and the layout on the board valid. Widening an
event onto the new level is harmless because it had reached the old top: nothing that overlaps it
can have been there as well, and it does not overlap the newcomer.
-/

namespace CalendarDial.Greedy

/-- Widening changes no event. Both branches of the definition keep the event and differ in the
highest level alone. -/
@[simp]
theorem event_widen (top : Nat) (event : ClippedEvent) (previous : LeveledEvent) :
    (widen top event previous).event = previous.event := by
  rw [widen]
  split <;> rfl

/-- Widening leaves the lower end of a band where it is. So the event still starts where it was put,
and what the levels below it hold does not change for it. -/
@[simp]
theorem minLevel_widen (top : Nat) (event : ClippedEvent) (previous : LeveledEvent) :
    (widen top event previous).minLevel = previous.minLevel := by
  rw [widen]
  split <;> rfl

/-- Widening leaves the upper end of a band where it is, or moves it from the top to the new level
when the event does not overlap the newcomer. The two alternatives are the branches of the
definition, each with its condition. -/
theorem maxLevel_widen (top : Nat) (event : ClippedEvent) (previous : LeveledEvent) :
    (widen top event previous).maxLevel = previous.maxLevel ∨
      previous.maxLevel = top ∧ ¬ Overlaps previous event ∧
        (widen top event previous).maxLevel = top + 1 := by
  rw [widen]
  split
  · next widened => exact .inr ⟨widened.1, widened.2, rfl⟩
  · exact .inl rfl

/-- An event that overlaps the newcomer is not widened. The condition for widening asks for an event
that does not overlap the newcomer, so it fails here. -/
theorem widen_of_overlaps (top : Nat) (event : ClippedEvent) (previous : LeveledEvent)
    (overlap : Overlaps previous event) : widen top event previous = previous :=
  if_neg fun widened => widened.2 overlap

/-- Widening changes no time, and so not what an event overlaps. Only the times count for overlap,
and widening keeps the event with its times. -/
@[simp]
theorem widen_overlaps_iff {α : Type} [TimeSpan α] (top : Nat) (event : ClippedEvent)
    (previous : LeveledEvent) (other : α) :
    Overlaps (widen top event previous) other ↔ Overlaps previous other := by
  simp only [Overlaps, TimeSpan.startMs, TimeSpan.endMs, event_widen]

/-- Two widened events overlap just if they did before. The times of neither of them change; the
lemma about one widened event is applied on both sides. -/
theorem overlaps_widen_iff (top : Nat) (event : ClippedEvent) (a b : LeveledEvent) :
    Overlaps (widen top event a) (widen top event b) ↔ Overlaps a b := by
  rw [widen_overlaps_iff, overlaps_comm, widen_overlaps_iff, overlaps_comm]

namespace Board

/-- The three things that placing an event can do. -/
inductive Placed (board : Board) (event : ClippedEvent) : Board → Prop
  /-- The first event takes level zero. -/
  | opened (empty : board.placed = []) : board.Placed event ⟨[⟨event, 0, 0⟩], board.top⟩
  /-- The event fills a hole. -/
  | filled (lo hi : Nat) (hole : Hole board event lo hi) :
    board.Placed event ⟨board.placed ++ [⟨event, lo, hi⟩], board.top⟩
  /-- Every level is covered, and the event is put on a new one. -/
  | raised (some : board.placed ≠ [])
      (covered : ∀ level ≤ board.top, Covered board.placed event level) :
    board.Placed event
      ⟨board.placed.map (widen board.top event) ++ [⟨event, board.top + 1, board.top + 1⟩],
        board.top + 1⟩

/-- Placing an event does one of the three. The alternatives are those of the search: no event yet,
a hole found, or none. What the search says of its answer is the hole's definition in the second
case, and in the third that every level is covered. -/
theorem placed_place (board : Board) (event : ClippedEvent) :
    board.Placed event (board.place event) := by
  rw [place]
  split
  · next empty => exact .opened empty
  · next nonempty =>
    split
    · next lo hi found => exact .filled lo hi (hole_of_findHole board event lo hi found)
    · next none => exact .raised nonempty (covered_of_findHole_eq_none board event none)

/-- The last event of a list is placed on the board of the others. The board is a fold over the
events from the left. -/
theorem board_concat (events : List ClippedEvent) (event : ClippedEvent) :
    Greedy.board (events ++ [event]) = (Greedy.board events).place event :=
  List.foldl_append

/-- What holds before the first event and is kept by every placement holds after all of them. The
induction takes events off the end of the list, because the last event is the one placed last. The
step may use that the board is that of the events before. -/
theorem induction_board (motive : List ClippedEvent → Board → Prop) (start : motive [] Board.empty)
    (step : ∀ events event, motive events (Greedy.board events) →
      motive (events ++ [event]) ((Greedy.board events).place event))
    (events : List ClippedEvent) : motive events (Greedy.board events) := by
  induction events using List.reverseRecOn with
  | nil => exact start
  | append_singleton events event inductionHypothesis =>
    rw [board_concat]
    exact step events event inductionHypothesis

/-- The layout on the board. -/
def layout (board : Board) : Layout := ⟨board.placed, board.top⟩

/-- What every board satisfies: it holds the events placed so far in order, its layout is valid, and
no level has been opened without an event of its own. -/
structure Sound (events : List ClippedEvent) (board : Board) : Prop where
  kept : board.placed.map LeveledEvent.event = events
  valid : board.layout.Valid
  filled : board.top < max 1 board.placed.length

/-- There are as many bands on the board as events have been placed. Bands and events correspond one
by one. -/
theorem Sound.length_placed {events : List ClippedEvent} {board : Board}
    (sound : Sound events board) : board.placed.length = events.length := by
  rw [← List.length_map LeveledEvent.event, sound.kept]

/-- Before the first event no level above zero has been opened. The top is below the number of bands
or below one, and there are no bands. -/
theorem Sound.top_eq_zero {events : List ClippedEvent} {board : Board}
    (sound : Sound events board) (empty : board.placed = []) : board.top = 0 := by
  have filled := sound.filled
  rw [empty, List.length_nil] at filled
  omega

/-- The board before the first event satisfies it. It holds no events, its layout has no bands, and
its top is zero. -/
theorem sound_empty : Sound [] Board.empty :=
  ⟨rfl, ⟨nofun, nofun, List.Pairwise.nil⟩, Nat.zero_lt_one⟩

/-- A valid layout stays valid when an event is added whose band is the right way up, within the
highest level, and covered by nothing that overlaps the event. The bands that were there are as
valid as before. The new one stands behind them all, so it need only be kept apart from each of
them, and a shared level would be covered. -/
theorem valid_append (placed : List LeveledEvent) (top : Nat) (event : ClippedEvent) (lo hi : Nat)
    (valid : (Layout.mk placed top).Valid) (ordered : lo ≤ hi) (within : hi ≤ top)
    (free : ∀ level, lo ≤ level → level ≤ hi → ¬ Covered placed event level) :
    (Layout.mk (placed ++ [⟨event, lo, hi⟩]) top).Valid := by
  refine ⟨?_, ?_, List.pairwise_append.mpr ⟨valid.apart, List.pairwise_singleton _ _, ?_⟩⟩
  · exact List.forall_mem_append.mpr ⟨valid.ordered, List.forall_mem_singleton.mpr ordered⟩
  · exact List.forall_mem_append.mpr ⟨valid.bounded, List.forall_mem_singleton.mpr within⟩
  · intro previous present newcomer new overlap level shared
    obtain rfl := List.mem_singleton.mp new
    exact free level shared.2.1 shared.2.2 ⟨previous, present, overlap, shared.1⟩

/-- Opening a new level and widening onto it keeps a layout valid. A level that two widened bands
share gives one that they shared before, which is the old top if the level is the new one: both
bands had reached the old top in that case. Two events that overlap had no level in common, and
widening changes no times. -/
theorem valid_widen (placed : List LeveledEvent) (top : Nat) (event : ClippedEvent)
    (valid : (Layout.mk placed top).Valid) :
    (Layout.mk (placed.map (widen top event)) (top + 1)).Valid := by
  refine ⟨?_, ?_, List.pairwise_map.mpr ?_⟩
  · rintro _ listed
    obtain ⟨previous, present, rfl⟩ := List.mem_map.mp listed
    have ordered := valid.ordered previous present
    rcases maxLevel_widen top event previous with same | ⟨reached, -, raised⟩
    · rwa [minLevel_widen, same]
    · rw [minLevel_widen, raised]
      omega
  · rintro _ listed
    obtain ⟨previous, present, rfl⟩ := List.mem_map.mp listed
    have bounded : previous.maxLevel ≤ top := valid.bounded previous present
    show (widen top event previous).maxLevel ≤ top + 1
    rcases maxLevel_widen top event previous with same | ⟨-, -, raised⟩ <;> omega
  · refine valid.apart.imp_of_mem ?_
    intro a b first second apart overlap level ⟨⟨lowerFirst, upperFirst⟩, lowerSecond, upperSecond⟩
    have separate := apart ((overlaps_widen_iff top event a b).mp overlap)
    have orderedFirst := valid.ordered a first
    have orderedSecond := valid.ordered b second
    have boundedFirst : a.maxLevel ≤ top := valid.bounded a first
    have boundedSecond : b.maxLevel ≤ top := valid.bounded b second
    rw [minLevel_widen] at lowerFirst lowerSecond
    refine separate (min level top) ⟨⟨?_, ?_⟩, ?_, ?_⟩ <;>
      rcases maxLevel_widen top event a with sameFirst | ⟨reachedFirst, -, raisedFirst⟩ <;>
      rcases maxLevel_widen top event b with sameSecond | ⟨reachedSecond, -, raisedSecond⟩ <;>
      omega

/-- Nothing that overlaps the newcomer is widened onto the new level. A band that was not widened
ends at the old top or below it, and one that was widened belongs to an event that does not overlap
the newcomer. -/
theorem not_covered_widen (placed : List LeveledEvent) (top : Nat) (event : ClippedEvent)
    (bounded : ∀ previous ∈ placed, previous.maxLevel ≤ top) :
    ¬ Covered (placed.map (widen top event)) event (top + 1) := by
  rintro ⟨_, listed, overlap, -, upper⟩
  obtain ⟨previous, present, rfl⟩ := List.mem_map.mp listed
  have within := bounded previous present
  rcases maxLevel_widen top event previous with same | ⟨-, apart, -⟩
  · omega
  · exact apart ((widen_overlaps_iff top event previous event).mp overlap)

/-- Each of the three things that placing an event can do keeps what every board satisfies. The
first event has the board to itself. A hole is free of whatever overlaps the event, so the event is
added to a valid layout. A new level adds the event above bands that have been widened, and none
that reaches the new level overlaps it. The top rises by one only together with the number of bands,
and never for the first event. -/
theorem sound_of_placed (events : List ClippedEvent) (board next : Board) (event : ClippedEvent)
    (sound : Sound events board) (placed : board.Placed event next) :
    Sound (events ++ [event]) next := by
  obtain ⟨kept, valid, filled⟩ := sound
  cases placed with
  | opened empty =>
    have none : events = [] := by rw [← kept, empty, List.map_nil]
    refine ⟨by rw [none]; rfl, ⟨?_, ?_, List.pairwise_singleton _ _⟩, ?_⟩
    · exact List.forall_mem_singleton.mpr (Nat.le_refl 0)
    · exact List.forall_mem_singleton.mpr (Nat.zero_le _)
    · rwa [empty] at filled
  | filled lo hi hole =>
    refine ⟨?_, valid_append _ _ event lo hi valid hole.ordered hole.within hole.free, ?_⟩
    · rw [List.map_append, kept]
      rfl
    · simp only [List.length_append, List.length_singleton]
      omega
  | raised some covered =>
    refine ⟨?_, valid_append _ _ event _ _ (valid_widen _ _ event valid) (Nat.le_refl _)
      (Nat.le_refl _) ?_, ?_⟩
    · rw [List.map_append, List.map_map, Function.comp_def]
      simp only [event_widen, kept, List.map_cons, List.map_nil]
    · intro level lower upper
      obtain rfl := Nat.le_antisymm upper lower
      exact not_covered_widen board.placed board.top event valid.bounded
    · have size : 0 < board.placed.length := List.length_pos_iff.mpr some
      simp only [List.length_append, List.length_map, List.length_singleton]
      omega

/-- Every board that placing events leads to satisfies it. The empty board does, and each placement
keeps it. -/
theorem sound_board (events : List ClippedEvent) : Sound events (Greedy.board events) :=
  induction_board Sound sound_empty
    (fun events event sound => sound_of_placed events _ _ event sound (placed_place _ event)) events

/-- What holds of the empty board, and of whatever an event makes of a sound board of which it
holds, holds of every board that placing events leads to. Every board on the way is sound, so the
step need not carry soundness along beside the property. -/
theorem induction_sound (motive : Board → Prop) (start : motive Board.empty)
    (step : ∀ events board next event, Sound events board → motive board →
      board.Placed event next → motive next) (events : List ClippedEvent) :
    motive (Greedy.board events) :=
  induction_board (fun _ board => motive board) start
    (fun events event holds =>
      step events _ _ event (sound_board events) holds (placed_place _ event)) events

end Board

/-- The greedy layout holds the events in order. Nothing is lost, added, changed or moved, for
soundness of the last board says so. -/
theorem map_event_layout (events : List ClippedEvent) :
    (layout events).events.map LeveledEvent.event = events :=
  (Board.sound_board events).kept

/-- The greedy layout is valid. The layout is what the last board holds, and a sound board holds a
valid one. -/
theorem layout_valid (events : List ClippedEvent) : (layout events).Valid :=
  (Board.sound_board events).valid

/-- The greedy layout has no more levels than events, and level zero in any case. A level is only
ever opened for an event that is put on it, and not for the first one. -/
theorem maxLevel_layout_lt (events : List ClippedEvent) :
    (layout events).maxLevel < max 1 events.length := by
  have sound := Board.sound_board events
  exact sound.length_placed ▸ sound.filled

end CalendarDial.Greedy
