import CalendarDial.Outcome
import CalendarDial.Refresh.Source

/-!
# Keeping a layout current

A pipeline publishes snapshots: a layout, the window that it was made for, and a generation number
that grows by one with every publication. Anyone may request a refresh at any time, and a request is
dropped while a refresh is under way. An accepted request becomes a job, which goes through its
phases one at a time: it reads the clock, asks the source, computes the layout, takes a number,
publishes, and makes room for the next. A source that fails ends the job without a publication, and
so does a crash; the snapshot published before stays.

Between the phases of a job anything else may happen. That no two jobs are ever active is therefore
not built into the state: the state could hold any number of them, and the flag alone keeps them
apart.
-/

namespace CalendarDial.Refresh

/-- One published layout. The generation is zero and the window missing before the first refresh. -/
structure Snapshot where
  generation : Nat
  window : Option Window
  outcome : LayoutOutcome
deriving DecidableEq

/-- How a job ends. A source that fails is no crash. -/
inductive Ending where
  | completed
  | crashed
deriving DecidableEq

/-- The phase that a job is in: what it is about to do, and what it knows by then. -/
inductive Job where
  | readingClock
  | fetching (window : Window)
  | computing (window : Window) (events : List RawEvent)
  | counting (window : Window) (events : List RawEvent) (outcome : LayoutOutcome)
  | publishing (events : List RawEvent) (snapshot : Snapshot)
  | leaving (ending : Ending)
deriving DecidableEq

/-- What the clock shows and what the source would answer at some moment. -/
structure Surroundings where
  now : ZonedTime
  reply : Reply

/-- The state of a pipeline. -/
structure Pipeline where
  settings : LayoutSettings
  inFlight : Bool
  generation : Nat
  published : Snapshot
  jobs : List Job
deriving DecidableEq

namespace Pipeline

/-- A pipeline that has not refreshed yet. -/
def new (settings : LayoutSettings) : Pipeline :=
  ⟨settings, false, 0, ⟨0, none, LayoutOutcome.empty settings.primary⟩, []⟩

/-- Requests a refresh. The flag says whether the request was accepted. -/
def request (pipeline : Pipeline) : Pipeline × Bool :=
  if pipeline.inFlight then (pipeline, false)
  else ({ pipeline with inFlight := true, jobs := pipeline.jobs ++ [.readingClock] }, true)

/-- The window for the time now. -/
def currentWindow (now : ZonedTime) : Except Overflow Window := Window.atTime now

/-- Requests a refresh if the current window is not the one that was published. -/
def tick (pipeline : Pipeline) (now : ZonedTime) : Except Overflow (Pipeline × Bool) := do
  let window ← currentWindow now
  pure (if pipeline.published.window = some window then (pipeline, false) else pipeline.request)

/-- The phase after reading the clock. -/
def afterClock (now : ZonedTime) : Job :=
  match currentWindow now with
  | .ok window => .fetching window
  | .error _ => .leaving .crashed

/-- The phase after asking the source. -/
def afterFetch (window : Window) : Reply → Job
  | .events events => .computing window events
  | .failure _ => .leaving .completed
  | .crash => .leaving .crashed

/-- The phase after computing the layout with the given solver. -/
def afterComputing (solver : Linear.Solver) (settings : LayoutSettings) (window : Window)
    (events : List RawEvent) : Job :=
  match outcomeForWith solver settings window events with
  | .ok outcome => .counting window events outcome
  | .error _ => .leaving .crashed

/-- The pipeline with a job in another phase. -/
def move (pipeline : Pipeline) (index : Nat) (job : Job) : Pipeline :=
  { pipeline with jobs := pipeline.jobs.set index job }

/-- The job with the given index does what it is about to do. A layout is computed with the given
solver. -/
def advanceWith (solver : Linear.Solver) (pipeline : Pipeline) (index : Nat)
    (around : Surroundings) : Pipeline :=
  match pipeline.jobs[index]? with
  | none => pipeline
  | some .readingClock => pipeline.move index (afterClock around.now)
  | some (.fetching window) => pipeline.move index (afterFetch window around.reply)
  | some (.computing window events) =>
    pipeline.move index (afterComputing solver pipeline.settings window events)
  | some (.counting window events outcome) =>
    let generation := pipeline.generation + 1
    { pipeline with generation }.move index
      (.publishing events ⟨generation, some window, outcome⟩)
  | some (.publishing _ snapshot) =>
    { pipeline with published := snapshot }.move index (.leaving .completed)
  | some (.leaving _) =>
    { pipeline with inFlight := false, jobs := pipeline.jobs.eraseIdx index }

/-- The job with the given index does what it is about to do. -/
def advance (pipeline : Pipeline) (index : Nat) (around : Surroundings) : Pipeline :=
  pipeline.advanceWith Bands.solver index around

/-- A job has no more phases than these. -/
def phases : Nat := 6

/-- Lets the first job go through its remaining phases, and says how it ends. There is nothing to
say when there is no job. The number bounds the number of phases, and a layout is computed with the
given solver. -/
def drainWith (solver : Linear.Solver) : Nat → Pipeline → Surroundings → Pipeline × Option Ending
  | 0, pipeline, _ => (pipeline, none)
  | fuel + 1, pipeline, around =>
    match pipeline.jobs.head? with
    | none => (pipeline, none)
    | some (.leaving ending) => (pipeline.advanceWith solver 0 around, some ending)
    | some _ => drainWith solver fuel (pipeline.advanceWith solver 0 around) around

/-- Lets the first job go through all its phases, and says how it ends. A layout is computed with
the given solver. -/
def settleWith (solver : Linear.Solver) (pipeline : Pipeline) (around : Surroundings) :
    Pipeline × Option Ending :=
  drainWith solver phases pipeline around

/-- Lets the first job go through all its phases, and says how it ends. -/
def settle (pipeline : Pipeline) (around : Surroundings) : Pipeline × Option Ending :=
  pipeline.settleWith Bands.solver around

end Pipeline

end CalendarDial.Refresh
