import Mathlib.Data.List.Induction
import CalendarDial.Proofs.Greedy.Board

/-!
# What later events change

Placing more events moves no lower end of a band and takes no level away from one. The only bands
that can change are those that had reached the top: when a new level is opened they may be widened
onto it, and then onto the next one, and so on. As long as the top stays where it is, or for a band
that ends below it, nothing changes at all.
-/

namespace CalendarDial.Greedy

/-- What may have become of a band while the top rose: it is what it was, or it had reached the old
top and now ends on one of the new levels. -/
inductive Widened (top newTop : Nat) (before : LeveledEvent) : LeveledEvent → Prop
  /-- The band is what it was. -/
  | kept : Widened top newTop before before
  /-- The band had reached the old top and has been widened. -/
  | raised (level : Nat) (reached : before.maxLevel = top) (above : top < level)
      (within : level ≤ newTop) : Widened top newTop before { before with maxLevel := level }

namespace Widened

variable {top newTop : Nat} {before after : LeveledEvent}

/-- The event and the lower end of its band are what they were. Neither way of becoming another band
touches them. -/
theorem event_eq (widened : Widened top newTop before after) : after.event = before.event := by
  cases widened <;> rfl

/-- The lower end of a band is what it was. Only the upper end is ever moved. -/
theorem minLevel_eq (widened : Widened top newTop before after) :
    after.minLevel = before.minLevel := by
  cases widened <;> rfl

/-- The upper end of a band has not come down. It is the same, or it had been the old top and is now
a level above it. -/
theorem maxLevel_le (widened : Widened top newTop before after) :
    before.maxLevel ≤ after.maxLevel := by
  cases widened with
  | kept => exact Nat.le_refl _
  | raised level reached above within => exact Nat.le_of_lt (reached ▸ above)

/-- A band that had not reached the old top is what it was. Only bands that had reached it can be
widened. -/
theorem eq_of_lt (widened : Widened top newTop before after) (short : before.maxLevel < top) :
    after = before := by
  cases widened with
  | kept => rfl
  | raised level reached above within => omega

/-- While no level is opened every band is what it was. There is no level that a band could have
been widened onto. -/
theorem eq_of_le (widened : Widened top newTop before after) (level : newTop ≤ top) :
    after = before := by
  cases widened with
  | kept => rfl
  | raised level reached above within => omega

/-- A band that is widened and later widened again had reached the first top already. One that is
widened only later had then reached the second top, which is not below the first, while it ended at
the first or below it; so the two tops are the same. -/
theorem trans {finalTop : Nat} {final : LeveledEvent} (first : Widened top newTop before after)
    (second : Widened newTop finalTop after final) (bounded : before.maxLevel ≤ top)
    (risen : top ≤ newTop) (higher : newTop ≤ finalTop) : Widened top finalTop before final := by
  cases first with
  | kept =>
    cases second with
    | kept => exact .kept
    | raised level reached above within => exact .raised level (by omega) (by omega) within
  | raised level reached above within =>
    cases second with
    | kept => exact .raised level reached above (by omega)
    | raised next again beyond inside => exact .raised next reached (by omega) inside

end Widened

/-- A band after the level above the top has been opened for an event. It is the level above the top
if the band had reached the top and the event is not in its way. -/
theorem widened_widen (top : Nat) (event : ClippedEvent) (previous : LeveledEvent) :
    Widened top (top + 1) previous (widen top event previous) := by
  rw [widen]
  split
  · next reached => exact .raised (top + 1) reached.1 (Nat.lt_succ_self top) (Nat.le_refl _)
  · exact .kept

namespace Board

/-- One board continues another: it holds what has become of every band, at the same position, and
the top has not come down. -/
structure Continues (later earlier : Board) : Prop where
  top : earlier.top ≤ later.top
  bands : ∀ (i : Nat) (before : LeveledEvent), earlier.placed[i]? = some before →
    ∃ after, later.placed[i]? = some after ∧ Widened earlier.top later.top before after

/-- Every board continues itself. No band has changed and no level has been opened. -/
theorem Continues.refl (board : Board) : board.Continues board :=
  ⟨Nat.le_refl _, fun _ before found => ⟨before, found, .kept⟩⟩

/-- What continues a continuation of a board, all bands of which end at or below its top, continues
that board. Position by position, what has become of a band is followed through both steps. -/
theorem Continues.trans {first second third : Board} (after : second.Continues first)
    (onward : third.Continues second)
    (bounded : ∀ band ∈ first.placed, band.maxLevel ≤ first.top) : third.Continues first := by
  refine ⟨Nat.le_trans after.top onward.top, fun i before found => ?_⟩
  obtain ⟨middle, foundMiddle, widened⟩ := after.bands i before found
  obtain ⟨final, foundFinal, again⟩ := onward.bands i middle foundMiddle
  exact ⟨final, foundFinal, widened.trans again (bounded before (List.mem_of_getElem? found))
    after.top onward.top⟩

/-- Each of the three things that placing an event can do continues the board. The newcomer stands
behind every earlier position, so what was found at a position is found there still, widened onto
the new level if one has been opened. -/
theorem continues_of_placed (board next : Board) (event : ClippedEvent)
    (placed : board.Placed event next) : next.Continues board := by
  have inFront (bands : List LeveledEvent) (newcomer : LeveledEvent) (i : Nat)
      (bound : i < bands.length) : (bands ++ [newcomer])[i]? = bands[i]? :=
    List.getElem?_append_left bound
  cases placed with
  | opened empty =>
    refine ⟨Nat.le_refl _, fun i before found => ?_⟩
    rw [empty] at found
    cases found
  | filled lo hi hole =>
    refine ⟨Nat.le_refl _, fun i before found => ⟨before, ?_, .kept⟩⟩
    rw [inFront _ _ i (List.getElem?_eq_some_iff.mp found).1, found]
  | raised some covered =>
    refine ⟨Nat.le_succ _, fun i before found => ⟨_, ?_, widened_widen board.top event before⟩⟩
    have bound : i < (board.placed.map (widen board.top event)).length := by
      rw [List.length_map]
      exact (List.getElem?_eq_some_iff.mp found).1
    rw [inFront _ _ i bound, List.getElem?_map, found, Option.map_some]

/-- The board of a longer list continues the board of the events that come first in it. By induction
on the number of further events, for each placement continues the board that it is made on, and the
bands of the first board end at its top or below it. -/
theorem continues_append (events more : List ClippedEvent) :
    (Greedy.board (events ++ more)).Continues (Greedy.board events) := by
  induction more using List.reverseRecOn with
  | nil =>
    rw [List.append_nil]
    exact .refl _
  | append_singleton more event inductionHypothesis =>
    rw [← List.append_assoc, board_concat]
    exact inductionHypothesis.trans (continues_of_placed _ _ event (placed_place _ event))
      (sound_board events).valid.bounded

end Board

/-- The greedy layout of some events, followed by any more. Every one of them keeps the lower end of
its band, and the upper end does not come down. A band that ends below the highest level of the
layout of these events alone is the same in both layouts. The highest level does not come down
either, and if it stays the same, so do all the bands. There are fewer levels above zero than
events, so that counting them cannot overflow where the number of events does not. What has become
of each band is told by how the board of all the events continues the board of the first ones. -/
theorem layout_append_stable (events more : List ClippedEvent) :
    (∀ (i : Nat) (event : ClippedEvent), events[i]? = some event → ∃ lo hi newHi,
      (layout events).events[i]? = some ⟨event, lo, hi⟩ ∧
        (layout (events ++ more)).events[i]? = some ⟨event, lo, newHi⟩ ∧
        hi ≤ newHi ∧ (hi < (layout events).maxLevel → newHi = hi)) ∧
      (layout events).maxLevel ≤ (layout (events ++ more)).maxLevel ∧
      ((layout (events ++ more)).maxLevel = (layout events).maxLevel →
        (layout events).events <+: (layout (events ++ more)).events) ∧
      (layout (events ++ more)).maxLevel < max 1 (events ++ more).length := by
  obtain ⟨risen, bands⟩ := Board.continues_append events more
  refine ⟨fun i event found => ?_, risen, fun level => ?_, maxLevel_layout_lt _⟩
  · rw [← map_event_layout events, List.getElem?_map, Option.map_eq_some_iff] at found
    obtain ⟨before, foundBefore, rfl⟩ := found
    obtain ⟨after, foundAfter, widened⟩ := bands i before foundBefore
    refine ⟨before.minLevel, before.maxLevel, after.maxLevel, foundBefore, ?_,
      widened.maxLevel_le, fun short => congrArg _ (widened.eq_of_lt short)⟩
    rw [← widened.event_eq, ← widened.minLevel_eq]
    exact foundAfter
  · rw [List.prefix_iff_getElem?]
    intro i bound
    obtain ⟨after, foundAfter, widened⟩ := bands i _ (List.getElem?_eq_getElem bound)
    rw [← widened.eq_of_le (Nat.le_of_eq level)]
    exact foundAfter

/-- A fourth event that overlaps none of three fills both of their levels and changes none of their
bands. The fifth one needs a level of its own. The first band ends below the top and stays as it is;
the fourth one has reached the top and is widened. -/
theorem layout_append_stable_of_five :
    layout [⟨0, 60, 1⟩, ⟨100, 200, 2⟩, ⟨50, 150, 3⟩, ⟨300, 400, 4⟩] =
        ⟨[⟨⟨0, 60, 1⟩, 0, 0⟩, ⟨⟨100, 200, 2⟩, 0, 0⟩, ⟨⟨50, 150, 3⟩, 1, 1⟩, ⟨⟨300, 400, 4⟩, 0, 1⟩],
          1⟩ ∧
      (layout [⟨0, 60, 1⟩, ⟨100, 200, 2⟩, ⟨50, 150, 3⟩]).events <+:
        (layout [⟨0, 60, 1⟩, ⟨100, 200, 2⟩, ⟨50, 150, 3⟩, ⟨300, 400, 4⟩]).events ∧
      (layout [⟨0, 60, 1⟩, ⟨100, 200, 2⟩, ⟨50, 150, 3⟩, ⟨300, 400, 4⟩, ⟨120, 130, 5⟩]).events[0]? =
        some ⟨⟨0, 60, 1⟩, 0, 0⟩ ∧
      ∃ newHi, 1 ≤ newHi ∧
        (layout
          [⟨0, 60, 1⟩, ⟨100, 200, 2⟩, ⟨50, 150, 3⟩, ⟨300, 400, 4⟩, ⟨120, 130, 5⟩]).events[3]? =
            some ⟨⟨300, 400, 4⟩, 0, newHi⟩ := by
  have made : layout [⟨0, 60, 1⟩, ⟨100, 200, 2⟩, ⟨50, 150, 3⟩, ⟨300, 400, 4⟩] =
      ⟨[⟨⟨0, 60, 1⟩, 0, 0⟩, ⟨⟨100, 200, 2⟩, 0, 0⟩, ⟨⟨50, 150, 3⟩, 1, 1⟩, ⟨⟨300, 400, 4⟩, 0, 1⟩],
        1⟩ := by decide
  obtain ⟨-, -, same, -⟩ :=
    layout_append_stable [⟨0, 60, 1⟩, ⟨100, 200, 2⟩, ⟨50, 150, 3⟩] [⟨300, 400, 4⟩]
  obtain ⟨bands, -⟩ := layout_append_stable
    [⟨0, 60, 1⟩, ⟨100, 200, 2⟩, ⟨50, 150, 3⟩, ⟨300, 400, 4⟩] [⟨120, 130, 5⟩]
  rw [made] at bands
  refine ⟨made, same (by decide), ?_, ?_⟩
  · obtain ⟨lo, hi, newHi, found, continued, -, short⟩ := bands 0 ⟨0, 60, 1⟩ rfl
    cases found
    exact short Nat.zero_lt_one ▸ continued
  · obtain ⟨lo, hi, newHi, found, continued, higher, -⟩ := bands 3 ⟨300, 400, 4⟩ rfl
    cases found
    exact ⟨newHi, higher, continued⟩

end CalendarDial.Greedy
