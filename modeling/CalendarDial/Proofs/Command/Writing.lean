import CalendarDial.Command.Writing

/-!
# Writing piece by piece

Writing a text in pieces comes to the same as writing it whole, and steps that write nothing can be
taken together. So a command that takes all of its steps before it writes does the same as one that
puts its whole report together first, and if it fails it has written nothing.
-/

namespace CalendarDial.Command

open CommandError (ofOverflow)

namespace Work

/-- Two computations are the same if they do the same after every text, for all they can see is what
has been written. -/
theorem ext {α : Type} {first second : Work α}
    (same : ∀ before, first.run before = second.run before) : first = second := funext same

/-- Steps that write nothing can be taken together, and the first of them that fails ends both. -/
theorem take_bind {α β : Type} (step : Except CommandError α)
    (next : α → Except CommandError β) :
    take (step >>= next) = take step >>= fun value => take (next value) := by
  cases step with
  | ok value => rfl
  | error error => rfl

/-- Two pieces in a row are written as one, the second after the first. -/
theorem write_append (first second : String) :
    write (first ++ second) = (do write first; write second) := by
  apply ext
  intro before
  show EStateM.Result.ok () (before ++ (first ++ second)) = .ok () (before ++ first ++ second)
  rw [String.append_assoc]

/-- Writing the empty text is doing nothing. -/
theorem write_empty : write "" = pure () := by
  apply ext
  intro before
  show EStateM.Result.ok () (before ++ "") = .ok () before
  rw [String.append_empty]

/-- Pieces in order are written as their concatenation, one after the other. -/
theorem writeAll_eq (pieces : List String) : writeAll pieces = write (String.join pieces) := by
  induction pieces with
  | nil => exact write_empty.symm
  | cons piece pieces inductionHypothesis =>
    rw [writeAll, inductionHypothesis, String.join_cons, write_append]

end Work

open Work (write take writeAll)

/-- Writing a layout for people line by line is writing its report. The line about the window is
taken before anything is written, and nothing after it can fail. -/
theorem writeLayoutText_eq (window : Window) (outcome : LayoutOutcome) :
    writeLayoutText window outcome =
      take (ofOverflow (Report.layoutText window outcome)) >>= write := by
  have lines (line : String) :
      (do
        write line
        write (Report.engineLine outcome)
        if outcome.layout.events.isEmpty then
          write "no visible events\n"
        writeAll (outcome.layout.events.map Report.eventLine)
        writeAll (outcome.violations.map Report.violationLine) : Work Unit) =
      write (line ++ Report.engineLine outcome ++
        (if outcome.layout.events.isEmpty then "no visible events\n" else "") ++
        String.join (outcome.layout.events.map Report.eventLine) ++
        String.join (outcome.violations.map Report.violationLine)) := by
    simp only [Work.write_append, Work.writeAll_eq, bind_assoc]
    split
    · rfl
    · rw [Work.write_empty]
      rfl
  rw [writeLayoutText, Report.layoutText]
  cases Report.windowLine window with
  | ok line => exact lines line
  | error cause => rfl

/-- Writing a layout for programs is writing its report. All objects are made before the first
character. -/
theorem writeLayoutJson_eq (window : Window) (outcome : LayoutOutcome) :
    writeLayoutJson window outcome =
      take (ofOverflow (Report.layoutJson window outcome)) >>= write := by
  rw [writeLayoutJson, Report.layoutJson]
  cases Report.layoutTree window outcome with
  | ok tree => exact (Work.write_append _ _).symm
  | error cause => rfl

/-- The layout command at work writes the report that it would put together as a whole. Whatever can
fail comes before the first line in both. -/
theorem writeLayoutWith_eq (solver : Linear.Solver) (request : LayoutRequest)
    (content : Option ByteArray) (settings : LayoutSettings) (clock : LocalClock) :
    writeLayoutWith solver request content settings clock =
      take (layoutWith solver request content settings clock) >>= write := by
  rw [writeLayoutWith, layoutWith]
  simp only [Work.take_bind, bind_assoc]
  refine bind_congr fun events => bind_congr fun time => bind_congr fun window =>
    bind_congr fun outcome => ?_
  split
  · exact writeLayoutJson_eq window outcome
  · exact writeLayoutText_eq window outcome

/-- If the layout command fails, nothing has been written; otherwise its report has. All its steps
are taken before it writes. -/
theorem run_writeLayoutWith (solver : Linear.Solver) (request : LayoutRequest)
    (content : Option ByteArray) (settings : LayoutSettings) (clock : LocalClock)
    (before : String) :
    (writeLayoutWith solver request content settings clock).run before =
      match layoutWith solver request content settings clock with
      | .ok report => .ok () (before ++ report)
      | .error error => .error error before := by
  rw [writeLayoutWith_eq]
  cases layoutWith solver request content settings clock with
  | ok report => rfl
  | error error => rfl

end CalendarDial.Command
