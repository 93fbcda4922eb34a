import CalendarDial.Proofs.Calendar.Strict
import CalendarDial.Proofs.Command.Report
import CalendarDial.Proofs.Command.Writing
import CalendarDial.Proofs.Counters

/-!
# The layout command fails before it writes, and never by overflowing

The command looks at two things that it has been given: the events file and the time. If either
cannot be understood, that is the failure, and nothing has been written. Otherwise the time is one
that is kept, its window is proper, all that follows stays within 64 bits whatever the events, and
the report is written from beginning to end.
-/

namespace CalendarDial

open Linear (Solver)

/-- The file is there, its bytes are text in UTF-8, and the text is a JSON array whose items are the
given events. -/
def HoldsEvents (content : Option ByteArray) (events : List RawEvent) : Prop :=
  ∃ bytes text items, content = some bytes ∧ String.fromUTF8? bytes = some text ∧
    Json.Tree.parse? text.toList = some (.array items) ∧
    items.mapM RawEvent.ofFileTree? = some events

/-- The events of a text are the items of the array that it is, all of which are events. -/
theorem eventsOfText?_eq_some_iff (text : String) (events : List RawEvent) :
    eventsOfText? text = some events ↔ ∃ items,
      Json.Tree.parse? text.toList = some (.array items) ∧
      items.mapM RawEvent.ofFileTree? = some events := by
  rw [eventsOfText?]
  cases Json.Tree.parse? text.toList with
  | none => simp
  | some tree =>
    cases tree with
    | array items => simp
    | _ => simp

/-- Reading an events file gives the events that it holds. What can be missing is the file, its
encoding, the array or an event in it. -/
theorem readEvents_eq_ok_iff (path : String) (content : Option ByteArray)
    (events : List RawEvent) :
    readEvents path content = .ok events ↔ HoldsEvents content events := by
  simp only [readEvents, HoldsEvents, exists_and_left, ← eventsOfText?_eq_some_iff]
  cases content with
  | none => simp
  | some bytes =>
    cases decoded : String.fromUTF8? bytes with
    | none => simp [decoded]
    | some text => cases found : eventsOfText? text <;> simp [decoded, found]

/-- Reading an events file does not overflow. Its failures are two, and both name the file. -/
theorem readEvents_ne_overflow (path : String) (content : Option ByteArray) (cause : Overflow) :
    readEvents path content ≠ .error (.overflow cause) := by
  intro failed
  rw [readEvents] at failed
  split at failed
  · cases failed
  · split at failed <;> cases failed

/-- A text that is no distance from now is a time exactly if it is a timestamp. Only where the
strict form finds nothing is a distance looked for, and there is none. -/
theorem resolveTime_eq_ok_iff (clock : LocalClock) (text : String)
    (notRelative : ∀ minutes, Calendar.readRelative text.toList ≠ .ok minutes) (time : ZonedTime) :
    resolveTime clock (some text) = .ok time ↔ Calendar.readStrict? text.toList = some time := by
  rw [resolveTime, WrittenTime.read]
  cases Calendar.readStrict? text.toList with
  | some strict => simp [Except.map, WrittenTime.resolve]
  | none =>
    cases relative : Calendar.readRelative text.toList with
    | ok minutes => exact absurd relative (notRelative minutes)
    | error cause => cases cause <;> simp [Except.map]

/-- Finding the time does not overflow, because distances are limited before they are counted
back. -/
theorem resolveTime_ne_overflow (clock : LocalClock) (time : Option String) (cause : Overflow) :
    resolveTime clock time ≠ .error (.overflow cause) := by
  cases time with
  | none => exact nofun
  | some text =>
    rw [resolveTime, WrittenTime.read]
    cases Calendar.readStrict? text.toList with
    | some strict => exact nofun
    | none =>
      cases Calendar.readRelative text.toList with
      | ok minutes => exact nofun
      | error relative => cases relative <;> exact nofun

namespace Command

/-- The settings with the engine that was asked for. -/
def LayoutRequest.settings (request : LayoutRequest) (settings : LayoutSettings) : LayoutSettings :=
  { settings with primary := request.engine.getD settings.primary }

/-- The report of an outcome in the form that was asked for. -/
def LayoutRequest.report (request : LayoutRequest) (window : Window) (outcome : LayoutOutcome) :
    Except Overflow String :=
  if request.json then Report.layoutJson window outcome else Report.layoutText window outcome

/-- With the events and the time at hand nothing fails any more. The report is that of the layout of
what the window of the hour shows. Its window is proper, and every event shown lies in it, so 64
bits hold all lengths. -/
theorem exists_report (solver : Solver) (request : LayoutRequest) (content : Option ByteArray)
    (settings : LayoutSettings) (clock : LocalClock) (events : List RawEvent) (time : ZonedTime)
    (read : readEvents request.path content = .ok events)
    (resolved : resolveTime clock request.time = .ok time) (kept : time.Kept) :
    ∃ report, layoutWith solver request content settings clock = .ok report ∧
      request.report (Window.ofHour time) (computeLayoutWith solver (request.settings settings)
        ((Window.ofHour time).shown events)) = .ok report := by
  have proper := Window.proper_ofHour time kept
  have fits : ∀ band ∈ (computeLayoutWith solver (request.settings settings)
      ((Window.ofHour time).shown events)).layout.events,
      Instant.Representable (band.event.endMs - band.event.startMs) := fun band shown =>
    ((Window.ofHour time).holds_of_mem_shown events band.event
      (event_mem_of_mem_layout solver _ _ band shown)).representable _ proper _
  obtain ⟨report, written⟩ : ∃ report, request.report (Window.ofHour time)
      (computeLayoutWith solver (request.settings settings)
        ((Window.ofHour time).shown events)) = .ok report := by
    rw [LayoutRequest.report]
    split
    · exact Report.exists_layoutJson _ _ fits
    · exact Report.exists_layoutText _ proper _
  refine ⟨report, ?_, written⟩
  have made := outcomeForWith_eq_ok solver (request.settings settings) (Window.ofHour time) proper
    events
  rw [LayoutRequest.settings] at made
  rw [LayoutRequest.report, LayoutRequest.settings] at written
  simp only [layoutWith, read, resolved, Window.atTime_eq_ok time kept, made, written, bind,
    Except.bind, CommandError.ofOverflow]

/-- The layout command with a time that is not a distance from now. If the file holds events and the
time is a timestamp, the command succeeds: to what has been written before it adds the report of the
layout of what the window of that hour shows, in the form that was asked for. Nothing that is
counted on the way leaves its limits, if the number of events and the end of the axis fit into 32
bits. In all other cases the command fails, and then it has written nothing, and no instant has left
the 64-bit range. The solver can do what it likes. -/
theorem writeLayoutWith_atomic (solver : Solver) (path text : String) (engine : Option Engine)
    (json : Bool) (content : Option ByteArray) (settings : LayoutSettings) (clock : LocalClock)
    (before : String)
    (notRelative : ∀ minutes, Calendar.readRelative text.toList ≠ .ok minutes) :
    let request : LayoutRequest := ⟨path, some text, engine, json⟩
    let run := (writeLayoutWith solver request content settings clock).run before
    (∃ events time window outcome report, HoldsEvents content events ∧
      Calendar.readStrict? text.toList = some time ∧ Window.atTime time = .ok window ∧
      outcomeForWith solver (request.settings settings) window events = .ok outcome ∧
      request.report window outcome = .ok report ∧ run = .ok () (before ++ report) ∧
      (events.length < 2 ^ 32 → settings.maxLevel < 2 ^ 32 →
        CountersFit (request.settings settings) (window.shown events) outcome)) ∨
    ((¬ ∃ events, HoldsEvents content events) ∨ Calendar.readStrict? text.toList = none) ∧
      ∃ error, run = .error error before ∧ ∀ cause, error ≠ .overflow cause := by
  intro request run
  have ran := run_writeLayoutWith solver request content settings clock before
  cases read : readEvents path content with
  | error error =>
    have unread : ¬ ∃ events, HoldsEvents content events := by
      rintro ⟨events, holds⟩
      cases read.symm.trans ((readEvents_eq_ok_iff path content events).mpr holds)
    have failed : layoutWith solver request content settings clock = .error error := by
      simp only [layoutWith, request, read, bind, Except.bind]
    rw [failed] at ran
    refine .inr ⟨.inl unread, error, ran, fun cause same => ?_⟩
    exact readEvents_ne_overflow path content cause (same ▸ read)
  | ok events =>
    cases strict : Calendar.readStrict? text.toList with
    | none =>
      cases resolved : resolveTime clock (some text) with
      | ok time =>
        have found := (resolveTime_eq_ok_iff clock text notRelative time).mp resolved
        cases strict.symm.trans found
      | error error =>
        have failed : layoutWith solver request content settings clock = .error error := by
          simp only [layoutWith, request, read, resolved, bind, Except.bind]
        rw [failed] at ran
        refine .inr ⟨.inr rfl, error, ran, fun cause same => ?_⟩
        exact resolveTime_ne_overflow clock (some text) cause (same ▸ resolved)
    | some time =>
      have kept := Calendar.kept_of_readStrict _ time strict
      have resolved := (resolveTime_eq_ok_iff clock text notRelative time).mpr strict
      obtain ⟨report, succeeded, written⟩ :=
        exists_report solver request content settings clock events time read resolved kept
      rw [succeeded] at ran
      have proper := Window.proper_ofHour time kept
      refine .inl ⟨events, time, Window.ofHour time, _, report,
        (readEvents_eq_ok_iff path content events).mp read, rfl, Window.atTime_eq_ok time kept,
        outcomeForWith_eq_ok solver (request.settings settings) _ proper events, written, ran,
        fun few low => ?_⟩
      have shown : ((Window.ofHour time).shown events).length ≤ events.length := by
        rw [Window.shown, (displayed_perm _).length_eq]
        exact List.length_filterMap_le _ _
      exact countersFit solver (request.settings settings) _ (Nat.lt_of_le_of_lt shown few) low

/-- A file with one event and a timestamp: the report is written after what was there before. -/
theorem writeLayoutWith_atomic_of_one_event :
    let content := "[[\"2025-03-10T07:30:00Z\",\"2025-03-10T09:00:00Z\",7]]"
    let time := "2025-03-10T09:20:00+02:00"
    (∀ minutes, Calendar.readRelative time.toList ≠ .ok minutes) ∧
      HoldsEvents (some content.toUTF8) [⟨1741591800000, 1741597200000, 7⟩] ∧
      ∃ report, (writeLayoutWith Bands.solver ⟨"events.json", some time, some .greedy, false⟩
        (some content.toUTF8) {} ⟨0, fun _ => 0⟩).run "before " = .ok () ("before " ++ report) := by
  intro content time
  have notRelative : ∀ minutes, Calendar.readRelative time.toList ≠ .ok minutes := by
    have refused : Calendar.readRelative time.toList = .error .notRelative := by decide +kernel
    intro minutes read
    exact nomatch refused.symm.trans read
  have holds : HoldsEvents (some content.toUTF8) [⟨1741591800000, 1741597200000, 7⟩] := by
    have decoded : String.fromUTF8? content.toUTF8 = some content := by decide +kernel
    have read : eventsOfText? content = some [⟨1741591800000, 1741597200000, 7⟩] := by
      decide +kernel
    obtain ⟨items, parsed, made⟩ := (eventsOfText?_eq_some_iff _ _).mp read
    exact ⟨content.toUTF8, content, items, rfl, decoded, parsed, made⟩
  have strict : Calendar.readStrict? time.toList = some ⟨1741591200000, 7200⟩ := by
    decide +kernel
  obtain ⟨_, _, _, _, report, -, -, -, -, -, ran, -⟩ | ⟨absent | unread, -⟩ :=
    writeLayoutWith_atomic Bands.solver "events.json" time (some .greedy) false
      (some content.toUTF8) {} ⟨0, fun _ => 0⟩ "before " notRelative
  · exact ⟨notRelative, holds, report, ran⟩
  · exact absurd ⟨_, holds⟩ absent
  · exact nomatch strict.symm.trans unread

end Command

end CalendarDial
