import CalendarDial.Outcome
import CalendarDial.Proofs.DisplayOrder
import CalendarDial.Proofs.Window

/-!
# What is shown of a calendar

In a proper window the way from the calendar to the dial cannot overflow. What is laid out are the
visible parts of the events in display order. That order is the same however the calendar delivers
its events, and so is everything that follows.
-/

namespace CalendarDial

open Linear (Solver)

/-- The parts of the events that a window shows, in display order. -/
def Window.shown (window : Window) (events : List RawEvent) : List ClippedEvent :=
  displayed (events.filterMap window.part)

/-- Everything that a window shows lies inside it. Arranging adds nothing, so it is the part of some
event, and every part lies inside. -/
theorem Window.holds_of_mem_shown (window : Window) (events : List RawEvent) (event : ClippedEvent)
    (present : event ∈ window.shown events) : window.Holds event := by
  have listed := (displayed_perm _).mem_iff.mp present
  obtain ⟨raw, -, found⟩ := List.mem_filterMap.mp listed
  exact window.holds_of_part_eq_some raw event found

/-- What a proper window shows has a length that 64 bits hold. It is positive and less than a turn
of the hour hand. -/
theorem Window.Holds.representable (window : Window) (proper : window.Proper)
    (event : ClippedEvent) (held : window.Holds event) :
    Instant.Representable (event.endMs - event.startMs) := by
  obtain ⟨-, forward, -, shorter⟩ := held
  rw [proper.span] at shorter
  simp only [Instant.turn, Instant.hour] at shorter
  simp only [Instant.Representable, Instant.least, Instant.greatest]
  omega

/-- In a proper window nothing overflows on the way from the calendar to the dial, whatever the
events. Clipping stays within a proper window, the lengths that sorting takes are less than a turn,
and laying out takes no times at all. -/
theorem outcomeForWith_eq_ok (solver : Solver) (settings : LayoutSettings) (window : Window)
    (proper : window.Proper) (events : List RawEvent) :
    outcomeForWith solver settings window events =
      .ok (computeLayoutWith solver settings (window.shown events)) := by
  have sorted : sortForDisplay (events.filterMap window.part) = .ok (window.shown events) := by
    apply sortForDisplay_eq_ok
    intro event present
    obtain ⟨raw, -, found⟩ := List.mem_filterMap.mp present
    exact (window.holds_of_part_eq_some raw event found).representable window proper event
  rw [outcomeForWith, window.clipAll_eq_ok proper events]
  show (do
    let sorted ← sortForDisplay (events.filterMap window.part)
    pure (computeLayoutWith solver settings sorted)) = _
  rw [sorted]
  rfl

/-- The order in which the calendar delivers its events makes no difference, not even to a failure.
For the window of any local hour there is an outcome, and it is the same for both orders, bands and
all. The solver can be any function of the program that it is given. Clipping can fail in one way
only, so it fails for both orders or gives reordered parts; a list of parts and its reorderings have
one arrangement; and after that there is nothing left to tell the orders apart. -/
theorem outcomeForWith_perm (solver : Solver) (settings : LayoutSettings)
    (first second : List RawEvent) (reordered : first.Perm second) :
    (∀ window, outcomeForWith solver settings window first =
      outcomeForWith solver settings window second) ∧
    ∀ now : ZonedTime, now.Kept → ∃ window outcome, Window.atTime now = .ok window ∧
      outcomeForWith solver settings window first = .ok outcome ∧
      outcomeForWith solver settings window second = .ok outcome := by
  have same (window : Window) : outcomeForWith solver settings window first =
      outcomeForWith solver settings window second := by
    rw [outcomeForWith, outcomeForWith]
    rcases window.clipAll_perm first second reordered with
      ⟨parts, others, clipped, also, permuted⟩ | ⟨fails, also⟩
    · rw [clipped, also]
      show (do
        let sorted ← sortForDisplay parts
        pure (computeLayoutWith solver settings sorted)) = _
      rw [sortForDisplay_eq_of_perm parts others permuted]
      rfl
    · rw [fails, also]
  refine ⟨same, fun now kept => ?_⟩
  have made := outcomeForWith_eq_ok solver settings (Window.ofHour now)
    (Window.proper_ofHour now kept) second
  exact ⟨Window.ofHour now, _, Window.atTime_eq_ok now kept, (same _).trans made, made⟩

/-- Three events seen half an hour after midnight, an hour east. Two of them differ only in their
start, so that nothing else decides which of them comes first. -/
theorem outcomeForWith_perm_of_three :
    ([⟨600000, 1800000, 1⟩, ⟨-5, 7200000, 2⟩, ⟨0, 1800000, 1⟩] : List RawEvent).Perm
      [⟨0, 1800000, 1⟩, ⟨600000, 1800000, 1⟩, ⟨-5, 7200000, 2⟩] ∧
    (⟨1800000, 3600⟩ : ZonedTime).Kept ∧
    Window.atTime ⟨1800000, 3600⟩ = .ok ⟨0, 43200000, 3600000⟩ ∧
    outcomeForWith Bands.solver ⟨.greedy, .greedy, 10⟩ ⟨0, 43200000, 3600000⟩
        [⟨0, 1800000, 1⟩, ⟨600000, 1800000, 1⟩, ⟨-5, 7200000, 2⟩] =
      .ok ⟨⟨[⟨⟨3600000, 10800000, 2⟩, 0, 0⟩, ⟨⟨4200000, 5400000, 1⟩, 1, 1⟩,
        ⟨⟨3600000, 5400000, 1⟩, 2, 2⟩], 2⟩, .greedy, false, []⟩ := by
  have reordered : ([⟨600000, 1800000, 1⟩, ⟨-5, 7200000, 2⟩, ⟨0, 1800000, 1⟩] :
      List RawEvent).Perm [⟨0, 1800000, 1⟩, ⟨600000, 1800000, 1⟩, ⟨-5, 7200000, 2⟩] := by decide
  have kept : (⟨1800000, 3600⟩ : ZonedTime).Kept := ⟨by decide, by decide, by decide⟩
  have first : outcomeForWith Bands.solver ⟨.greedy, .greedy, 10⟩ ⟨0, 43200000, 3600000⟩
      [⟨600000, 1800000, 1⟩, ⟨-5, 7200000, 2⟩, ⟨0, 1800000, 1⟩] =
      .ok ⟨⟨[⟨⟨3600000, 10800000, 2⟩, 0, 0⟩, ⟨⟨4200000, 5400000, 1⟩, 1, 1⟩,
        ⟨⟨3600000, 5400000, 1⟩, 2, 2⟩], 2⟩, .greedy, false, []⟩ := by cbv
  obtain ⟨-, atHour⟩ :=
    outcomeForWith_perm Bands.solver ⟨.greedy, .greedy, 10⟩ _ _ reordered
  obtain ⟨window, outcome, found, before, after⟩ := atHour ⟨1800000, 3600⟩ kept
  have hour : Window.atTime ⟨1800000, 3600⟩ = .ok ⟨0, 43200000, 3600000⟩ := by decide +kernel
  obtain rfl := Except.ok.inj (found.symm.trans hour)
  exact ⟨reordered, kept, hour, after.trans (before.symm.trans first)⟩

end CalendarDial
