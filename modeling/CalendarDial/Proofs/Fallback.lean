import CalendarDial.Proofs.Outcome

/-!
# Any engine can be tried first

The even layout can be replaced by any engine that answers with a layout or fails. What it answers
is shown as it is, with its violations listed and not mended. When it fails the outcome says so, and
then no violation is left, whatever the engine has done: the greedy layout is made from the events
alone and is valid, and so is the empty one.
-/

namespace CalendarDial

namespace LayoutOutcome

/-- After a failure the outcome holds the greedy layout or the empty one, as the policy says. Either
is valid. The engine plays no part in it any more, so there is nothing that it could have
spoiled. -/
theorem spec_ofFailure (policy : FailurePolicy) (events : List ClippedEvent) :
    (ofFailure policy events).fellBack = true ∧ (ofFailure policy events).layout.Valid ∧
      (ofFailure policy events).violations = (ofFailure policy events).layout.violations ∧
      match policy with
      | .greedy => (ofFailure policy events).layout = Greedy.layout events ∧
          (ofFailure policy events).engine = .greedy
      | .empty => (ofFailure policy events).layout = Layout.empty ∧
          (ofFailure policy events).engine = .constraint := by
  cases policy with
  | greedy => exact ⟨rfl, Greedy.layout_valid events, rfl, rfl, rfl⟩
  | empty => exact ⟨rfl, Layout.valid_empty, rfl, rfl, rfl⟩

/-- With any engine and any events one of three things happens: there are no events and the engine
is not asked, its layout is shown, or the policy decides after its failure. They exclude each other,
because the engine gives one answer. -/
theorem ofEngine_cases (engine : List ClippedEvent → Except Bands.Failure Layout)
    (policy : FailurePolicy) (events : List ClippedEvent) :
    events = [] ∧ ofEngine engine policy events = empty .constraint ∨
    (∃ layout, events ≠ [] ∧ engine events = .ok layout ∧
      ofEngine engine policy events = checked layout .constraint false) ∨
    ∃ failure, events ≠ [] ∧ engine events = .error failure ∧
      ofEngine engine policy events = ofFailure policy events := by
  by_cases none : events = []
  · exact .inl ⟨none, by rw [none]; rfl⟩
  · cases answer : engine events with
    | ok layout =>
      exact .inr (.inl ⟨layout, none, rfl, ofEngine_ok engine policy events layout none answer⟩)
    | error failure =>
      exact .inr (.inr ⟨failure, none, rfl,
        ofEngine_error engine policy events failure none answer⟩)

/-- The violations of an outcome are those of its layout. In each of the three cases they have been
looked up in the layout that is shown, or there is no layout to break a rule. -/
theorem violations_ofEngine (engine : List ClippedEvent → Except Bands.Failure Layout)
    (policy : FailurePolicy) (events : List ClippedEvent) :
    (ofEngine engine policy events).violations =
      (ofEngine engine policy events).layout.violations := by
  obtain ⟨-, same⟩ | ⟨layout, -, -, same⟩ | ⟨failure, -, -, same⟩ :=
    ofEngine_cases engine policy events
  · rw [same]
    rfl
  · rw [same]
    rfl
  · rw [same]
    exact (spec_ofFailure policy events).2.2.1

/-- The outcome says that the engine failed exactly when there were events and it failed on them.
Only the outcome made by the policy says so, and it is made in just this case. -/
theorem fellBack_ofEngine_iff (engine : List ClippedEvent → Except Bands.Failure Layout)
    (policy : FailurePolicy) (events : List ClippedEvent) :
    (ofEngine engine policy events).fellBack = true ↔
      events ≠ [] ∧ ∃ failure, engine events = .error failure := by
  obtain ⟨none, same⟩ | ⟨layout, -, made, same⟩ | ⟨failure, some, failed, same⟩ :=
    ofEngine_cases engine policy events
  · rw [same, none]
    simp [empty]
  · rw [same, made]
    simp [checked]
  · rw [same, failed]
    simp [some, (spec_ofFailure policy events).1]

end LayoutOutcome

/-- Whatever engine is tried first, the outcome lists the violations of its layout. With no events
the engine is not asked and nothing is shown. A layout that the engine makes is shown as it is, with
no mention of a failure. A failure is mentioned exactly when there are events and the engine fails
on them. There is no violation then: the outcome holds the greedy layout, with every event once and
in order, or the empty one, and its levels fit into 32 bits if the number of events does. Each part
is read off the one of the three cases that its condition singles out. -/
theorem ofEngine_fallback (engine : List ClippedEvent → Except Bands.Failure Layout)
    (policy : FailurePolicy) (events : List ClippedEvent) :
    let outcome := LayoutOutcome.ofEngine engine policy events
    outcome.violations = outcome.layout.violations ∧
      (events = [] → outcome = LayoutOutcome.empty .constraint) ∧
      (∀ layout, events ≠ [] → engine events = .ok layout →
        outcome.layout = layout ∧ outcome.engine = .constraint ∧ outcome.fellBack = false) ∧
      (outcome.fellBack = true ↔ events ≠ [] ∧ ∃ failure, engine events = .error failure) ∧
      (outcome.fellBack = true → outcome.violations = [] ∧
        (policy = .greedy → outcome.engine = .greedy ∧ outcome.layout = Greedy.layout events ∧
          outcome.layout.events.map LeveledEvent.event = events) ∧
        (policy = .empty → outcome.engine = .constraint ∧ outcome.layout = Layout.empty) ∧
        (events.length < 2 ^ 32 → outcome.layout.maxLevel < 2 ^ 32)) := by
  intro outcome
  have told := LayoutOutcome.fellBack_ofEngine_iff engine policy events
  refine ⟨LayoutOutcome.violations_ofEngine engine policy events, ?_, ?_, told, ?_⟩
  · rintro rfl
    rfl
  · intro layout some made
    have same : outcome = .checked layout .constraint false :=
      LayoutOutcome.ofEngine_ok engine policy events layout some made
    rw [same]
    exact ⟨rfl, rfl, rfl⟩
  · intro fellBack
    obtain ⟨some, failure, failed⟩ := told.mp fellBack
    have same : outcome = LayoutOutcome.ofFailure policy events :=
      LayoutOutcome.ofEngine_error engine policy events failure some failed
    obtain ⟨-, valid, listed, shown⟩ := LayoutOutcome.spec_ofFailure policy events
    rw [same]
    refine ⟨listed.trans (Layout.violations_eq_nil_iff _ |>.mpr valid), ?_, ?_, fun few => ?_⟩
    · rintro rfl
      exact ⟨shown.2, shown.1, shown.1 ▸ Greedy.map_event_layout events⟩
    · rintro rfl
      exact ⟨shown.2, shown.1⟩
    · cases policy with
      | greedy =>
        have levels := Greedy.maxLevel_layout_lt events
        rw [shown.1]
        omega
      | empty =>
        rw [shown.1]
        exact Nat.two_pow_pos 32

/-- An engine that puts all events on level zero has its layout shown with the violation that it
has. One that always fails has the events laid out greedily. -/
theorem ofEngine_fallback_of_two :
    LayoutOutcome.ofEngine (fun events => .ok ⟨events.map (⟨·, 0, 0⟩), 0⟩) .greedy
        [⟨0, 60, 1⟩, ⟨30, 90, 2⟩] =
      ⟨⟨[⟨⟨0, 60, 1⟩, 0, 0⟩, ⟨⟨30, 90, 2⟩, 0, 0⟩], 0⟩, .constraint, false, [.sharedLevel 0 1]⟩ ∧
    LayoutOutcome.ofEngine (fun _ => .error (.unsatisfiable "injected")) .greedy
        [⟨0, 60, 1⟩, ⟨30, 90, 2⟩] =
      ⟨⟨[⟨⟨0, 60, 1⟩, 0, 0⟩, ⟨⟨30, 90, 2⟩, 1, 1⟩], 1⟩, .greedy, true, []⟩ := by
  have stacked : Layout.violations ⟨[⟨⟨0, 60, 1⟩, 0, 0⟩, ⟨⟨30, 90, 2⟩, 0, 0⟩], 0⟩ =
      [.sharedLevel 0 1] := by decide
  have placed : Greedy.layout [⟨0, 60, 1⟩, ⟨30, 90, 2⟩] =
      ⟨[⟨⟨0, 60, 1⟩, 0, 0⟩, ⟨⟨30, 90, 2⟩, 1, 1⟩], 1⟩ := by decide
  obtain ⟨listed, -, passed, -, -⟩ :=
    ofEngine_fallback (fun events => .ok ⟨events.map (⟨·, 0, 0⟩), 0⟩) .greedy
      [⟨0, 60, 1⟩, ⟨30, 90, 2⟩]
  obtain ⟨-, -, -, told, after⟩ :=
    ofEngine_fallback (fun _ => .error (.unsatisfiable "injected")) .greedy
      [⟨0, 60, 1⟩, ⟨30, 90, 2⟩]
  have fellBack := told.mpr ⟨by decide, _, rfl⟩
  obtain ⟨none, greedily, -, -⟩ := after fellBack
  have parts (outcome : LayoutOutcome) : outcome =
      ⟨outcome.layout, outcome.engine, outcome.fellBack, outcome.violations⟩ := rfl
  constructor
  · obtain ⟨same, engine, kept⟩ := passed _ (by decide) rfl
    rw [parts (LayoutOutcome.ofEngine _ _ _), listed, same, engine, kept]
    exact congrArg _ stacked
  · obtain ⟨engine, same, -⟩ := greedily rfl
    rw [parts (LayoutOutcome.ofEngine _ _ _), same, engine, fellBack, none, placed]

end CalendarDial
