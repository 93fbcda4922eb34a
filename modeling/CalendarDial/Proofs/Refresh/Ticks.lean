import Mathlib.Data.List.Destutter
import CalendarDial.Proofs.Display
import CalendarDial.Proofs.Refresh.Turns

/-!
# One publication for every window

A dial that is left alone looks at its clock now and then. It compares the window that it finds with
the one that it has published, and remembers nothing else. So a window for which the source has
given no events is not taken for done: the dial asks again at the next look, until there is
something to publish or the window is over.

Here every refresh comes to its end before the next look. Then a look leaves a pipeline at rest
behind, and there are three things that it can do: nothing, an attempt that fails, or a publication.
-/

namespace CalendarDial.Refresh

open Linear (Solver)

/-- The source gives events. -/
def Reply.Gives (reply : Reply) : Prop := ∃ events, reply = .events events

namespace Pipeline

variable {settings : LayoutSettings} {pipeline : Pipeline}

/-- The pipeline after a refresh with nothing in between. It publishes if there is a window, if the
source gives events, and if they can be laid out. -/
def refreshed (solver : Solver) (pipeline : Pipeline) (around : Surroundings) : Pipeline :=
  match currentWindow around.now, around.reply with
  | .ok window, .events events =>
    match outcomeForWith solver pipeline.settings window events with
    | .ok outcome => pipeline.renewed window outcome
    | .error _ => pipeline
  | _, _ => pipeline

/-- A job that leaves ends its turn. What is left is the pipeline as it was before the job, and
there is no other job to go on with. -/
theorem AtRest.drainWith_leaving (rest : pipeline.AtRest settings) (solver : Solver) (fuel : Nat)
    (ending : Ending) (around : Surroundings) :
    drainWith solver (fuel + 1) (pipeline.occupied (.leaving ending)) around =
      (pipeline, some ending) := by
  have left : (pipeline.occupied (.leaving ending)).advanceWith solver 0 around = pipeline :=
    rest.vacated
  show ((pipeline.occupied (.leaving ending)).advanceWith solver 0 around, some ending) = _
  rw [left]

/-- A refresh with nothing in between goes through its phases one after the other and leaves a
pipeline at rest behind. There are six phases at most, and the cases are those in which the clock,
the source or the layout ends the refresh early. -/
theorem AtRest.settleWith_occupied (rest : pipeline.AtRest settings) (solver : Solver)
    (around : Surroundings) :
    ((pipeline.occupied .readingClock).settleWith solver around).1 =
      pipeline.refreshed solver around := by
  obtain ⟨now, reply⟩ := around
  show (drainWith solver 5 (pipeline.occupied (afterClock now)) ⟨now, reply⟩).1 = _
  rw [refreshed, afterClock]
  cases currentWindow now with
  | error _ => rw [rest.drainWith_leaving]
  | ok window =>
    show (drainWith solver 4 (pipeline.occupied (afterFetch window reply)) ⟨now, reply⟩).1 = _
    cases reply with
    | failure error => exact congrArg Prod.fst (rest.drainWith_leaving solver 3 .completed _)
    | crash => exact congrArg Prod.fst (rest.drainWith_leaving solver 3 .crashed _)
    | events events =>
      show (drainWith solver 3 (pipeline.occupied
        (afterComputing solver pipeline.settings window events)) ⟨now, .events events⟩).1 = _
      rw [afterComputing]
      cases made : outcomeForWith solver pipeline.settings window events with
      | error _ =>
        simp only [made]
        rw [rest.drainWith_leaving]
      | ok outcome =>
        simp only [made]
        exact congrArg Prod.fst
          ((rest.renewed window outcome).drainWith_leaving solver 0 .completed _)

/-- Where there is no job, nothing has to come to its end. The first look for a job finds none. -/
theorem AtRest.settleWith_self (rest : pipeline.AtRest settings) (solver : Solver)
    (around : Surroundings) : (pipeline.settleWith solver around).1 = pipeline := by
  simp [settleWith, phases, drainWith, rest.empty]

/-- A tick, and the refresh that it starts with nothing in between. Says whether it starts one. -/
def attend (solver : Solver) (pipeline : Pipeline) (around : Surroundings) :
    Except Overflow (Pipeline × Bool) := do
  let (requested, started) ← pipeline.tick around.now
  pure ((requested.settleWith solver around).1, started)

/-- One tick after the other, each with the refresh that it starts. -/
def attendAll (solver : Solver) (pipeline : Pipeline) :
    List Surroundings → Except Overflow Pipeline
  | [] => pure pipeline
  | around :: later => do
    let (next, _) ← pipeline.attend solver around
    next.attendAll solver later

/-- A tick starts a refresh exactly when the window of that time is not the published one. A
pipeline at rest accepts the request, and what the tick has started is then a refresh with nothing
in between. -/
theorem AtRest.attend_eq (rest : pipeline.AtRest settings) (solver : Solver)
    (around : Surroundings) (window : Window) (current : currentWindow around.now = .ok window) :
    pipeline.attend solver around =
      if pipeline.published.window = some window then .ok (pipeline, false)
      else .ok (pipeline.refreshed solver around, true) := by
  have ticked : pipeline.tick around.now = .ok
      (if pipeline.published.window = some window then (pipeline, false)
        else (pipeline.occupied .readingClock, true)) := by
    rw [tick, current, ← rest.request]
    rfl
  rw [attend, ticked]
  split
  · show Except.ok ((pipeline.settleWith solver around).1, false) = _
    rw [rest.settleWith_self]
  · show Except.ok (((pipeline.occupied .readingClock).settleWith solver around).1, true) = _
    rw [rest.settleWith_occupied]

end Pipeline

/-- What a tick can do, given the window of its time: nothing, if that is the published one, else an
attempt that fails, or a publication. -/
inductive Attended (found : Pipeline) (around : Surroundings) (window : Window) :
    Pipeline → Bool → Prop
  | current (same : found.published.window = some window) :
    Attended found around window found false
  | failed (stale : found.published.window ≠ some window) (silent : ¬ around.reply.Gives) :
    Attended found around window found true
  | published (stale : found.published.window ≠ some window) (given : around.reply.Gives)
      (outcome : LayoutOutcome) :
    Attended found around window (found.renewed window outcome) true

namespace Pipeline

variable {settings : LayoutSettings} {pipeline : Pipeline}

/-- At a time that is kept a tick comes to its end. There is a window of that time, and whatever the
events, there is a layout of what it shows of them. So the attempt can fail by the source alone. -/
theorem AtRest.exists_attended (rest : pipeline.AtRest settings) (solver : Solver)
    (around : Surroundings) (kept : around.now.Kept) :
    ∃ left started, pipeline.attend solver around = .ok (left, started) ∧
      Attended pipeline around (Window.ofHour around.now) left started := by
  have current : currentWindow around.now = .ok (Window.ofHour around.now) :=
    Window.atTime_eq_ok around.now kept
  rw [rest.attend_eq solver around _ current]
  by_cases same : pipeline.published.window = some (Window.ofHour around.now)
  · rw [if_pos same]
    exact ⟨pipeline, false, rfl, .current same⟩
  · rw [if_neg same]
    refine ⟨_, true, rfl, ?_⟩
    obtain ⟨now, reply⟩ := around
    simp only [refreshed, current]
    cases reply with
    | events events =>
      have made := outcomeForWith_eq_ok solver pipeline.settings (Window.ofHour now)
        (Window.proper_ofHour now kept) events
      simp only [made]
      exact .published same ⟨events, rfl⟩ _
    | failure error => exact .failed same nofun
    | crash => exact .failed same nofun

end Pipeline

namespace Attended

variable {settings : LayoutSettings} {found left : Pipeline} {around : Surroundings}
  {window : Window} {started : Bool}

/-- A tick leaves a pipeline at rest behind. It is the one it found, or that one after one more
publication. -/
theorem atRest (attended : Attended found around window left started)
    (rest : found.AtRest settings) : left.AtRest settings := by
  cases attended with
  | current => exact rest
  | failed => exact rest
  | published _ _ outcome => exact rest.renewed window outcome

end Attended

/-- The window of a time at which the source gives events. -/
def Surroundings.offered? (around : Surroundings) : Option Window :=
  match around.reply with
  | .events _ => (Pipeline.currentWindow around.now).toOption
  | _ => none

/-- Where the source gives events, it does so for the window of the hour. At a time that is kept
there is such a window. -/
theorem Surroundings.offered?_of_gives (around : Surroundings) (kept : around.now.Kept)
    (given : around.reply.Gives) : around.offered? = some (Window.ofHour around.now) := by
  obtain ⟨events, given⟩ := given
  rw [offered?, given, Pipeline.currentWindow, Window.atTime_eq_ok around.now kept]
  rfl

/-- Where the source gives none, there is no window to be published. A window is offered only
together with events. -/
theorem Surroundings.offered?_of_silent (around : Surroundings) (silent : ¬ around.reply.Gives) :
    around.offered? = none := by
  rw [offered?]
  split
  · next events given => exact absurd ⟨events, given⟩ silent
  · rfl

/-- The windows that are published when the given ones are offered in turn: each of them, but for
one that repeats the one before. -/
def publications (offered : List Window) : List Window := offered.destutter (· ≠ ·)

/-- A window that is offered again is not published again. Equal neighbours are reduced to one. -/
theorem publications_cons_self (window : Window) (later : List Window) :
    publications (window :: window :: later) = publications (window :: later) := by
  rw [publications, List.destutter_cons_cons, if_neg (not_not_intro rfl)]
  rfl

/-- A window that is offered after another is published after it. Neighbours that differ are both
kept. -/
theorem publications_cons_of_ne (first second : Window) (later : List Window)
    (differ : first ≠ second) :
    publications (first :: second :: later) = first :: publications (second :: later) := by
  rw [publications, List.destutter_cons_cons, if_pos differ]
  rfl

/-- Since the earlier pipeline the given windows have been published, one after the other. -/
structure Since (earlier : Pipeline) (windows : List Window) (now : Pipeline) : Prop where
  generation : now.published.generation = earlier.published.generation + windows.length
  window : now.published.window = windows.getLast?.or earlier.published.window

/-- Since the earlier pipeline the windows that have been offered have been published, but for
repetitions. The window published before counts as offered first. -/
def Relayed (earlier : Pipeline) (offered : List Window) (now : Pipeline) : Prop :=
  ∃ windows, Since earlier windows now ∧
    publications (earlier.published.window.toList ++ offered) =
      earlier.published.window.toList ++ windows

/-- What a tick is offered comes before what is offered later. If it is not published, then because
it is published already, and a repetition is left out of the publications too. A tick that fails was
offered nothing. One that publishes adds its window at the front, behind one that differs from it or
behind none. -/
theorem Attended.relayed {settings : LayoutSettings} {found next left : Pipeline}
    {around : Surroundings} {started : Bool}
    (attended : Attended found around (Window.ofHour around.now) next started)
    (rest : found.AtRest settings) (kept : around.now.Kept) (offered : List Window)
    (later : Relayed next offered left) :
    Relayed found (around.offered?.toList ++ offered) left := by
  obtain ⟨windows, since, shown⟩ := later
  cases attended with
  | current same =>
    refine ⟨windows, since, ?_⟩
    rw [same] at shown ⊢
    by_cases given : around.reply.Gives
    · rw [around.offered?_of_gives kept given]
      exact (publications_cons_self _ _).trans shown
    · rw [around.offered?_of_silent given]
      exact shown
  | failed stale silent =>
    refine ⟨windows, since, ?_⟩
    rw [around.offered?_of_silent silent]
    exact shown
  | published stale given outcome =>
    rw [around.offered?_of_gives kept given]
    refine ⟨Window.ofHour around.now :: windows, ⟨?generation, ?window⟩, ?shown⟩
    case generation =>
      rw [since.generation, List.length_cons, ← rest.counted]
      show found.generation + 1 + windows.length = _
      omega
    case window =>
      rw [since.window, List.getLast?_cons]
      cases windows.getLast? <;> rfl
    case shown =>
      cases before : found.published.window with
      | none => exact shown
      | some other =>
        have differ : other ≠ Window.ofHour around.now := by
          rintro rfl
          exact stale before
        exact (publications_cons_of_ne _ _ _ differ).trans (congrArg (other :: ·) shown)

/-- Ticks at times that are kept come to their end one after the other, and the windows that they
are offered are published. By induction on the ticks: the first leaves a pipeline at rest behind,
from which the others go on. -/
theorem Pipeline.AtRest.exists_attendAll {settings : LayoutSettings} {pipeline : Pipeline}
    (rest : pipeline.AtRest settings) (solver : Solver) (ticks : List Surroundings)
    (kept : ∀ tick ∈ ticks, tick.now.Kept) :
    ∃ left, pipeline.attendAll solver ticks = .ok left ∧ left.AtRest settings ∧
      Relayed pipeline (ticks.filterMap Surroundings.offered?) left := by
  induction ticks generalizing pipeline with
  | nil =>
    refine ⟨pipeline, rfl, rest, [], ⟨rfl, rfl⟩, ?_⟩
    cases pipeline.published.window <;> rfl
  | cons around later inductionHypothesis =>
    rw [List.forall_mem_cons] at kept
    obtain ⟨next, started, attended, did⟩ := rest.exists_attended solver around kept.1
    obtain ⟨left, run, atRest, relayed⟩ := inductionHypothesis (did.atRest rest) kept.2
    have offers : (around :: later).filterMap Surroundings.offered? =
        around.offered?.toList ++ later.filterMap Surroundings.offered? := by
      rw [List.filterMap_cons]
      cases around.offered? <;> rfl
    refine ⟨left, ?_, atRest, ?_⟩
    · rw [attendAll, attended]
      exact run
    · rw [offers]
      exact did.relayed rest kept.1 _ relayed

/-- A tick keeps the pipeline current, given the window of its time. It starts a refresh exactly
when that window is not the published one, and no job is left afterwards. Then that window is the
published one, unless the source has failed the refresh. One snapshot is published if a refresh is
started and the source does not fail it, and otherwise the snapshot stays as it was. After a failure
a tick that finds the same window starts another refresh. -/
structure KeepsCurrent (solver : Solver) (found : Pipeline) (around : Surroundings)
    (window : Window) (left : Pipeline) (started : Bool) : Prop where
  starts : started = true ↔ found.published.window ≠ some window
  ends : left.jobs = [] ∧ left.inFlight = false
  current : left.published.window = some window ∨ started = true ∧ ¬ around.reply.Gives
  grows : found.published.window ≠ some window → around.reply.Gives →
    left.published.generation = found.published.generation + 1
  stays : started = false ∨ ¬ around.reply.Gives → left.published = found.published
  retries : started = true → ¬ around.reply.Gives → ∀ next : Surroundings,
    Pipeline.currentWindow next.now = .ok window →
      ∃ later, left.attend solver next = .ok (later, true)

/-- Every tick keeps the pipeline current. The three things that a tick can do are gone through.
After a failure the published window is still not the one of the hour, so the next tick in the same
hour starts a refresh again. -/
theorem Attended.keepsCurrent {settings : LayoutSettings} {found left : Pipeline}
    {around : Surroundings} {window : Window} {started : Bool}
    (attended : Attended found around window left started) (rest : found.AtRest settings)
    (solver : Solver) : KeepsCurrent solver found around window left started := by
  have atRest := attended.atRest rest
  have ends := And.intro atRest.empty atRest.idle
  cases attended with
  | current same =>
    refine ⟨?_, ends, .inl same, fun stale => absurd same stale, fun _ => rfl, nofun⟩
    exact iff_of_false nofun (not_not_intro same)
  | failed stale silent =>
    refine ⟨iff_of_true rfl stale, ends, .inr ⟨rfl, silent⟩, fun _ given => absurd given silent,
      fun _ => rfl, ?_⟩
    intro _ _ next again
    rw [rest.attend_eq solver next window again, if_neg stale]
    exact ⟨_, rfl⟩
  | published stale given outcome =>
    refine ⟨iff_of_true rfl stale, ends, .inl rfl, ?_, ?_, fun _ silent => absurd given silent⟩
    · intro _ _
      exact congrArg (· + 1) rest.counted
    · rintro (idle | silent)
      · cases idle
      · exact absurd given silent

/-- Every tick of a dial that is left alone comes to its end and keeps the pipeline current,
whatever the clock has shown at the earlier ticks and whatever the source has replied. The windows
published by then are those that the source has given events for, one after the other and without
repetitions. The solver can be any function of the program that it is given. The earlier ticks leave
a pipeline at rest, and what this tick does there is one of three things. -/
theorem ticks_keep_current (solver : Solver) (settings : LayoutSettings)
    (earlier : List Surroundings) (around : Surroundings)
    (kept : ∀ tick ∈ earlier ++ [around], tick.now.Kept) :
    ∃ found window left started,
      (Pipeline.new settings).attendAll solver earlier = .ok found ∧
      Pipeline.currentWindow around.now = .ok window ∧
      found.attend solver around = .ok (left, started) ∧
      KeepsCurrent solver found around window left started ∧
      found.published.generation =
        (publications (earlier.filterMap Surroundings.offered?)).length ∧
      found.published.window =
        (publications (earlier.filterMap Surroundings.offered?)).getLast? := by
  rw [List.forall_mem_append, List.forall_mem_singleton] at kept
  obtain ⟨found, run, rest, windows, since, shown⟩ :=
    (Pipeline.atRest_new settings).exists_attendAll solver earlier kept.1
  obtain ⟨left, started, attended, did⟩ := rest.exists_attended solver around kept.2
  have published : publications (earlier.filterMap Surroundings.offered?) = windows := shown
  refine ⟨found, _, left, started, run, Window.atTime_eq_ok around.now kept.2, attended,
    did.keepsCurrent rest solver, ?_, ?_⟩
  · rw [published, since.generation]
    exact Nat.zero_add _
  · rw [published, since.window]
    exact Option.or_none

/-- The source fails the first tick, gives no events but an answer at the second, and is not asked
at the third, which is in the same hour. It fails the fourth, an hour later, which is made up for by
whatever tick comes next in that hour. -/
theorem ticks_keep_current_of_four :
    (∀ tick ∈ ([⟨⟨1800000, 0⟩, .failure .permissionDenied⟩, ⟨⟨1800000, 0⟩, .events []⟩,
      ⟨⟨2400000, 0⟩, .events []⟩] ++ [⟨⟨5400000, 0⟩, .failure (.unavailable "")⟩] :
      List Surroundings), tick.now.Kept) ∧
    ∃ found left,
      (Pipeline.new ⟨.greedy, .greedy, 10⟩).attendAll Bands.solver
        [⟨⟨1800000, 0⟩, .failure .permissionDenied⟩, ⟨⟨1800000, 0⟩, .events []⟩,
          ⟨⟨2400000, 0⟩, .events []⟩] = .ok found ∧
      found.published.generation = 1 ∧ found.published.window = some ⟨0, 43200000, 0⟩ ∧
      found.attend Bands.solver ⟨⟨5400000, 0⟩, .failure (.unavailable "")⟩ = .ok (left, true) ∧
      left.published = found.published ∧
      ∃ later, left.attend Bands.solver ⟨⟨6000000, 0⟩, .events []⟩ = .ok (later, true) := by
  have kept : ∀ tick ∈ ([⟨⟨1800000, 0⟩, .failure .permissionDenied⟩, ⟨⟨1800000, 0⟩, .events []⟩,
      ⟨⟨2400000, 0⟩, .events []⟩] ++ [⟨⟨5400000, 0⟩, .failure (.unavailable "")⟩] :
      List Surroundings), tick.now.Kept := by
    simp only [List.cons_append, List.nil_append, List.forall_mem_cons]
    refine ⟨?_, ?_, ?_, ?_, nofun⟩ <;> exact ⟨by decide, by decide, by decide⟩
  have offered : publications
      ([⟨⟨1800000, 0⟩, .failure .permissionDenied⟩, ⟨⟨1800000, 0⟩, .events []⟩,
        ⟨⟨2400000, 0⟩, .events []⟩].filterMap Surroundings.offered?) =
      [⟨0, 43200000, 0⟩] := by decide +kernel
  have hour : Pipeline.currentWindow ⟨5400000, 0⟩ = .ok ⟨3600000, 46800000, 0⟩ := by
    decide +kernel
  have still : Pipeline.currentWindow ⟨6000000, 0⟩ = .ok ⟨3600000, 46800000, 0⟩ := by
    decide +kernel
  obtain ⟨found, window, left, started, run, current, attended, keeps, generation, published⟩ :=
    ticks_keep_current Bands.solver ⟨.greedy, .greedy, 10⟩ _ _ kept
  obtain rfl := Except.ok.inj (current.symm.trans hour)
  rw [offered] at generation published
  have stale : found.published.window ≠ some ⟨3600000, 46800000, 0⟩ := by
    rw [published]
    decide
  obtain rfl := keeps.starts.mpr stale
  have silent : ¬ Reply.Gives (.failure (.unavailable "")) := nofun
  exact ⟨kept, found, left, run, generation, published, attended, keeps.stays (.inr silent),
    keeps.retries rfl silent ⟨⟨6000000, 0⟩, .events []⟩ still⟩

end CalendarDial.Refresh
