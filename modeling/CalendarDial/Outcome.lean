import CalendarDial.DisplayOrder
import CalendarDial.Greedy
import CalendarDial.Settings
import CalendarDial.Violation
import CalendarDial.Window

/-!
# From events to a layout outcome

There are two engines. The even layout may fail, and then a policy decides between laying the events
out greedily and showing nothing; the greedy layout never fails. The outcome names the engine whose
layout it holds, says whether the first choice failed, and lists the rules that the layout breaks.

Before they are laid out, the events of a calendar are clipped to the window and put in display
order.
-/

namespace CalendarDial

/-- A layout, the engine that made it, whether the engine tried first failed, and the rules that the
layout breaks. -/
structure LayoutOutcome where
  layout : Layout
  engine : Engine
  fellBack : Bool
  violations : List Violation
deriving DecidableEq

namespace LayoutOutcome

/-- The outcome when there is nothing to show. -/
def empty (engine : Engine) : LayoutOutcome := ⟨Layout.empty, engine, false, []⟩

/-- A layout as an outcome, with its violations looked up. -/
def checked (layout : Layout) (engine : Engine) (fellBack : Bool) : LayoutOutcome :=
  ⟨layout, engine, fellBack, layout.violations⟩

/-- The outcome after the engine tried first has failed. -/
def ofFailure (policy : FailurePolicy) (events : List ClippedEvent) : LayoutOutcome :=
  match policy with
  | .greedy => checked (Greedy.layout events) .greedy true
  | .empty => checked Layout.empty .constraint true

/-- The outcome with any engine that can fail in place of the even layout. -/
def ofEngine (engine : List ClippedEvent → Except Bands.Failure Layout) (policy : FailurePolicy)
    (events : List ClippedEvent) : LayoutOutcome :=
  if events.isEmpty then
    empty .constraint
  else
    match engine events with
    | .ok layout => checked layout .constraint false
    | .error _ => ofFailure policy events

end LayoutOutcome

/-- Lays the events out as the settings say, the even layout being made with the given solver. -/
def computeLayoutWith (solver : Linear.Solver) (settings : LayoutSettings)
    (events : List ClippedEvent) : LayoutOutcome :=
  match settings.primary with
  | .constraint =>
    LayoutOutcome.ofEngine (Bands.layoutWith solver settings.maxLevel) settings.onSolverFailure
      events
  | .greedy =>
    if events.isEmpty then
      LayoutOutcome.empty .greedy
    else
      LayoutOutcome.checked (Greedy.layout events) .greedy false

/-- Lays the events out as the settings say. -/
def computeLayout (settings : LayoutSettings) (events : List ClippedEvent) : LayoutOutcome :=
  computeLayoutWith Bands.solver settings events

/-- The layout of what is visible of the events in a window, an even layout being made with the
given solver. -/
def outcomeForWith (solver : Linear.Solver) (settings : LayoutSettings) (window : Window)
    (events : List RawEvent) : Except Overflow LayoutOutcome := do
  let clipped ← window.clipAll events
  let sorted ← sortForDisplay clipped
  pure (computeLayoutWith solver settings sorted)

/-- The layout of what is visible of the events in a window. -/
def outcomeFor (settings : LayoutSettings) (window : Window) (events : List RawEvent) :
    Except Overflow LayoutOutcome :=
  outcomeForWith Bands.solver settings window events

end CalendarDial
