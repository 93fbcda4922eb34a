import CalendarDial.Bands.Pivoting
import CalendarDial.Linear.Exact

/-!
# The even layout

The demands of the program are made of a solver one by one. When it has accepted them all, it
reports a point, whose bands are rounded to whole levels. A half-open band from `a` to `b` becomes
the levels from the rounded `a` to one below the rounded `b`, so that bands which touch stay apart.

Coordinates are first snapped to millionths and then rounded to the nearest level, halves upward; a
value that is half a level up to less than the snapping distance counts as the half.

Any solver can be used. The layout that is shown is made with an exact one, which refuses only what
contradicts the demands before, and finds a placement of least cost.
-/

namespace CalendarDial.Bands

open Linear (Constraint Reading Refusal Solver)

/-- The ways in which an even layout can fail: the solver refuses a demand, or it reports something
that is not a number. -/
inductive Failure where
  | unsatisfiable (requirement : String)
  | duplicate (requirement : String)
  | internal (requirement reason : String)
  | nonFinite (index : Nat)
deriving DecidableEq

/-- The wording under which a failure is reported. -/
def Failure.message : Failure → String
  | unsatisfiable requirement => s!"unsatisfiable required constraint: {requirement}"
  | duplicate requirement => s!"duplicate constraint: {requirement}"
  | internal requirement reason => s!"internal solver error on {requirement}: {reason}"
  | nonFinite index => s!"solver produced a non-finite value for event {index}"

/-- The failure when the solver refuses the demand with the given name. -/
def Failure.ofRefusal (label : String) : Refusal → Failure
  | .unsatisfiable => .unsatisfiable label
  | .duplicate => .duplicate label
  | .internal reason => .internal label reason

/-- The extent of the axis when nothing else is asked for. -/
def defaultAxis : Nat := 10000

/-- The nearest integer, halves away from zero. -/
def roundHalfAway (x : Rat) : Int :=
  if 0 ≤ x then (x + 1 / 2).floor else -(-x + 1 / 2).floor

/-- The nearest millionth. -/
def snap (x : Rat) : Rat := roundHalfAway (x * 1000000) / 1000000

/-- The level nearest to a coordinate, after snapping, within the axis. -/
def toLevel (axis : Nat) (x : Rat) : Nat := min (roundHalfAway (snap x)).toNat axis

/-- The levels of a band from its start and its size. -/
def levelsOf (axis : Nat) (start size : Rat) : Nat × Nat :=
  let minLevel := toLevel axis start
  (minLevel, max (toLevel axis (start + size) - 1) minLevel)

namespace Program

/-- Makes further demands of a solver, one by one, and gives the constraints that it has accepted in
the end. -/
def impose (solver : Solver) (program : Program) (accepted : List Constraint) :
    List Demand → Except Failure (List Constraint)
  | [] => .ok accepted
  | demand :: demands =>
    match solver.refusal? accepted (program.constraint demand) with
    | some refusal => .error (Failure.ofRefusal demand.label refusal)
    | none => program.impose solver (accepted ++ [program.constraint demand]) demands

/-- The first event for which the start or the size is not a number. -/
def nonFinite? (program : Program) (reading : Reading) : Option Nat :=
  (List.range program.count).find? fun i =>
    (reading.value? (program.startIndex i)).isNone || (reading.value? (program.sizeIndex i)).isNone

/-- The point that the solver reports, unless some coordinate is not a number. -/
def read (program : Program) (reading : Reading) : Except Failure Point :=
  match program.nonFinite? reading with
  | some index => .error (.nonFinite index)
  | none => .ok (program.pointAt fun v => (reading.value? v).getD 0)

/-- The point that the solver reports once it has accepted all demands. -/
def solveWith (solver : Solver) (program : Program) : Except Failure Point := do
  let accepted ← program.impose solver [] program.demands
  program.read (solver.reading accepted)

end Program

/-- The events with the levels of their bands at a point. -/
def roundBands (axis : Nat) (x : Point) (events : List ClippedEvent) : List LeveledEvent :=
  events.mapIdx fun i event =>
    let (minLevel, maxLevel) := levelsOf axis (x.start i) (x.size i)
    ⟨event, minLevel, maxLevel⟩

/-- The even layout on an axis with the given extent, made with the given solver. The extent is also
the highest level that the layout reports, however few levels the bands use. -/
def layoutWith (solver : Solver) (axis : Nat) (events : List ClippedEvent) :
    Except Failure Layout := do
  let x ← (Program.ofEvents events axis).solveWith solver
  pure ⟨roundBands axis x events, axis⟩

/-- The exact solver, advised on the constraints of a program. -/
def solver : Solver := Linear.exactSolver advice

/-- The even layout that is shown. -/
def layout (axis : Nat) (events : List ClippedEvent) : Except Failure Layout :=
  layoutWith solver axis events

end CalendarDial.Bands
