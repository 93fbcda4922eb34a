import CalendarDial.Config.Value
import CalendarDial.Json.Coded
import CalendarDial.Settings

/-!
# Settings in layers

The settings are what the defaults and up to three further layers say, each laid over the ones
before. Only then are the values looked at, so a value that makes no sense does no harm once a later
layer has replaced it. Integers have to be integers in the range of their setting, and names have to
be spelled exactly; unknown keys are passed over.
-/

namespace CalendarDial.Config

/-- The defaults as a layer. -/
def defaults : Value :=
  let settings : Settings := {}
  .table [
    ("layout", .table [
      ("primary", .text settings.layout.primary.name),
      ("on_solver_failure", .text settings.layout.onSolverFailure.name),
      ("max_level", .int settings.layout.maxLevel)]),
    ("tick_secs", .int settings.tickSeconds)]

/-- The number up to the given bound that a value is. -/
def nat? (greatest : Nat) : Value → Option Nat
  | .int n => if 0 ≤ n ∧ n ≤ greatest then some n.toNat else none
  | _ => none

/-- The engine that a value names. -/
def engine? : Value → Option Engine
  | .text name =>
    if name = Engine.constraint.name then some .constraint
    else if name = Engine.greedy.name then some .greedy
    else none
  | _ => none

/-- The policy that a value names. -/
def policy? : Value → Option FailurePolicy
  | .text name =>
    if name = FailurePolicy.greedy.name then some .greedy
    else if name = FailurePolicy.empty.name then some .empty
    else none
  | _ => none

/-- A setting read from a value, or its default where there is none. -/
def orDefault {α : Type} (default : α) (read : Value → Option α) : Option Value → Option α
  | none => some default
  | some value => read value

/-- Layout settings from their three values, where they are given. -/
def layoutOf? (primary onSolverFailure maxLevel : Option Value) : Option LayoutSettings := do
  let defaults : LayoutSettings := {}
  pure {
    primary := ← orDefault defaults.primary engine? primary
    onSolverFailure := ← orDefault defaults.onSolverFailure policy? onSolverFailure
    maxLevel := ← orDefault defaults.maxLevel (nat? Json.greatest32) maxLevel }

/-- The layout settings that a value gives: a table, or a list of the settings in order. -/
def layout? : Value → Option LayoutSettings
  | .table entries =>
    layoutOf? (lookup "primary" entries) (lookup "on_solver_failure" entries)
      (lookup "max_level" entries)
  | .list items => layoutOf? items[0]? items[1]? items[2]?
  | _ => none

/-- The settings that a value gives. -/
def settings? : Value → Option Settings
  | .table entries => do
    let defaults : Settings := {}
    pure {
      layout := ← orDefault defaults.layout layout? (lookup "layout" entries)
      tickSeconds :=
        ← orDefault defaults.tickSeconds (nat? Json.greatest64) (lookup "tick_secs" entries) }
  | _ => none

/-- The settings of the defaults with the given layers over them, the last one on top. -/
def ofLayers? (layers : List Value) : Option Settings :=
  settings? (layers.foldl Value.merge defaults)

end CalendarDial.Config
