import Mathlib.Data.List.Induction
import CalendarDial.Refresh.Pipeline

/-!
# What can happen to a pipeline

Any number of callers request refreshes, readers read what is published, the clock moves, the source
changes its mind, and the jobs under way take their steps, all in any order. A job may also break
down wherever it runs code that is not the pipeline's own: while it reads the clock, asks the source
or computes the layout.

A history is a pipeline and its surroundings together with a memory of what has happened. The
pipeline never looks at the memory. It keeps one record for every accepted request, so that what a
job published can be held against what that same job was told.
-/

namespace CalendarDial.Refresh

open Linear (Solver)

/-- One thing that can happen. Jobs are named by their place among the active ones; nothing happens
where there is no job. -/
inductive Happening where
  | request
  | read
  | clock (now : ZonedTime)
  | source (reply : Reply)
  | work (index : Nat)
  | crash (index : Nat)
deriving DecidableEq

namespace Pipeline

/-- The job with the given index breaks down if it is running code that may. -/
def crash (pipeline : Pipeline) (index : Nat) : Pipeline :=
  match pipeline.jobs[index]? with
  | some .readingClock => pipeline.move index (.leaving .crashed)
  | some (.fetching _) => pipeline.move index (.leaving .crashed)
  | some (.computing _ _) => pipeline.move index (.leaving .crashed)
  | _ => pipeline

/-- The pipeline after something has happened. -/
def meet (solver : Solver) (pipeline : Pipeline) (around : Surroundings) : Happening → Pipeline
  | .request => pipeline.request.1
  | .read => pipeline
  | .clock _ => pipeline
  | .source _ => pipeline
  | .work index => pipeline.advanceWith solver index around
  | .crash index => pipeline.crash index

end Pipeline

/-- The surroundings after something has happened. -/
def Surroundings.meet (around : Surroundings) : Happening → Surroundings
  | .clock now => { around with now }
  | .source reply => { around with reply }
  | _ => around

/-- What is remembered of an accepted request: the pipeline that it found, the windows that its job
asked the source for with the replies, and the snapshots that its job published. -/
structure Record where
  found : Pipeline
  asked : List (Window × Reply)
  published : List Snapshot
deriving DecidableEq

/-- What is remembered of a job that has ended: its record, how it ended, and the pipeline that it
left behind. -/
structure Report where
  record : Record
  ending : Ending
  left : Pipeline
deriving DecidableEq

/-- What is remembered of everything: the records of the active jobs, in the order of the jobs, the
reports of the others in the order in which they ended, the snapshots in the order in which they
were published, and those that readers got. -/
structure Memory where
  active : List Record
  ended : List Report
  publications : List Snapshot
  reads : List Snapshot
deriving DecidableEq

/-- The record of a job that has done what it was about to do, and has left the given pipeline
behind. -/
def Record.extend (record : Record) (reply : Reply) (job : Job) (after : Pipeline) : Record :=
  match job with
  | .fetching window => { record with asked := record.asked ++ [(window, reply)] }
  | .publishing _ _ => { record with published := record.published ++ [after.published] }
  | _ => record

namespace Memory

/-- The memory of a pipeline that nothing has happened to. -/
def empty : Memory := ⟨[], [], [], []⟩

/-- The records of all accepted requests, the ended ones first. -/
def records (memory : Memory) : List Record :=
  memory.ended.map Report.record ++ memory.active

/-- Remembers what a job has done: its record is now the given one. -/
def follow (memory : Memory) (index : Nat) (job : Job) (record : Record) (after : Pipeline) :
    Memory :=
  match job with
  | .leaving ending =>
    { memory with
      active := memory.active.eraseIdx index
      ended := memory.ended ++ [⟨record, ending, after⟩] }
  | .publishing _ _ =>
    { memory with
      active := memory.active.set index record
      publications := memory.publications ++ [after.published] }
  | _ => { memory with active := memory.active.set index record }

/-- Remembers what has happened between two states of a pipeline. -/
def note (memory : Memory) (before after : Pipeline) (reply : Reply) : Happening → Memory
  | .request =>
    if before.request.2 then { memory with active := memory.active ++ [⟨before, [], []⟩] }
    else memory
  | .read => { memory with reads := memory.reads ++ [before.published] }
  | .work index =>
    match before.jobs[index]?, memory.active[index]? with
    | some job, some record => memory.follow index job (record.extend reply job after) after
    | _, _ => memory
  | _ => memory

end Memory

/-- A pipeline, its surroundings, and the memory of what has happened. -/
structure History where
  pipeline : Pipeline
  around : Surroundings
  memory : Memory

namespace History

/-- The history of a pipeline that nothing has happened to. -/
def start (settings : LayoutSettings) (around : Surroundings) : History :=
  ⟨Pipeline.new settings, around, Memory.empty⟩

/-- The history after one more happening. -/
def next (solver : Solver) (history : History) (happening : Happening) : History :=
  let after := history.pipeline.meet solver history.around happening
  ⟨after, history.around.meet happening,
    history.memory.note history.pipeline after history.around.reply happening⟩

/-- The history of a new pipeline after everything in the list has happened to it. -/
def run (solver : Solver) (settings : LayoutSettings) (around : Surroundings)
    (happenings : List Happening) : History :=
  happenings.foldl (next solver) (start settings around)

/-- What holds of a new pipeline and is kept by every happening holds after all of them. The
induction takes happenings off the end of the list, because the last of them happens to the history
of the others. -/
theorem induction_run (solver : Solver) (settings : LayoutSettings) (around : Surroundings)
    (motive : List Happening → History → Prop) (initial : motive [] (start settings around))
    (step : ∀ happenings history happening, motive happenings history →
      motive (happenings ++ [happening]) (next solver history happening))
    (happenings : List Happening) : motive happenings (run solver settings around happenings) := by
  induction happenings using List.reverseRecOn with
  | nil => exact initial
  | append_singleton happenings happening inductionHypothesis =>
    rw [run, List.foldl_append]
    exact step happenings _ happening inductionHypothesis

end History

end CalendarDial.Refresh
