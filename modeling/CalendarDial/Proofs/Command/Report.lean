import CalendarDial.Proofs.Display
import CalendarDial.Report.LayoutJson
import CalendarDial.Report.Lines

/-!
# Reports that cannot fail

Only three things in a report are computed from instants: the ends of the window on the local clock,
the length of the window, and the lengths of the events. In a proper window that holds the events 64
bits hold them all.
-/

namespace CalendarDial.Report

/-- The line about a proper window shows its ends on the local clock. The end is computed from the
start and the length of the window, and comes out as the end moved to the local clock. -/
theorem windowLine_eq_ok (window : Window) (proper : window.Proper) :
    windowLine window = .ok ("window " ++
      Calendar.dateClockText (window.startMs + window.utcOffsetMs) ++ " .. " ++
      Calendar.clockText (window.endMs + window.utcOffsetMs) ++
      (windowOffset? window).elim "" (fun seconds => " (" ++ Calendar.offsetText seconds ++ ")") ++
      "\n") := by
  have length : window.endMs - window.startMs = Instant.turn := by
    have span := proper.span
    omega
  have fits : Instant.Representable (window.endMs - window.startMs) := by
    rw [length]
    decide
  have finish : window.startMs + window.utcOffsetMs + (window.endMs - window.startMs) =
      window.endMs + window.utcOffsetMs := by omega
  have kept : Instant.add (window.startMs + window.utcOffsetMs) (window.endMs - window.startMs) =
      .ok (window.endMs + window.utcOffsetMs) :=
    Instant.add_eq_ok_iff.mpr ⟨finish ▸ proper.finish, finish⟩
  rw [windowLine, Window.localStart, Instant.add_eq_ok_iff.mpr ⟨proper.start, rfl⟩,
    Instant.sub_eq_ok_iff.mpr ⟨fits, rfl⟩]
  simp only [bind, Except.bind, kept]
  cases windowOffset? window <;> rfl

/-- A proper window has its line, since both of its ends on the local clock are instants. -/
theorem exists_windowLine (window : Window) (proper : window.Proper) :
    ∃ line, windowLine window = .ok line :=
  ⟨_, windowLine_eq_ok window proper⟩

/-- In a proper window every outcome has its report for people. Only the line about the window is
computed from instants. -/
theorem exists_layoutText (window : Window) (proper : window.Proper) (outcome : LayoutOutcome) :
    ∃ report, layoutText window outcome = .ok report := by
  obtain ⟨line, written⟩ := exists_windowLine window proper
  rw [layoutText, written]
  exact ⟨_, rfl⟩

/-- An event whose length 64 bits hold has its object: nothing else in it is computed. -/
theorem exists_eventTree (globalMax : Nat) (event : LeveledEvent)
    (fits : Instant.Representable (event.event.endMs - event.event.startMs)) :
    ∃ tree, eventTree globalMax event = .ok tree := by
  rw [eventTree, LeveledEvent.wedge, LeveledEvent.wedgeIn, ClippedEvent.duration,
    Instant.sub_eq_ok_iff.mpr ⟨fits, rfl⟩]
  exact ⟨_, rfl⟩

/-- An outcome whose events have lengths that 64 bits hold has its report for programs. Each of its
objects can be made, and together they are the report. -/
theorem exists_layoutJson (window : Window) (outcome : LayoutOutcome)
    (fits : ∀ band ∈ outcome.layout.events,
      Instant.Representable (band.event.endMs - band.event.startMs)) :
    ∃ report, layoutJson window outcome = .ok report := by
  have drawn := mapM_eq_ok_filterMap (eventTree outcome.layout.maxLevel) outcome.layout.events
    fun band present => exists_eventTree outcome.layout.maxLevel band (fits band present)
  rw [layoutJson, layoutTree, drawn]
  exact ⟨_, rfl⟩

end CalendarDial.Report
