import CalendarDial.Proofs.Refresh.Turns

/-!
# Refreshes are safe

Since jobs take turns, nothing that happens between the steps of a job can get in its way. The flag
tells whether a job is active, the counter and the published snapshot agree but for the moment
between counting and publishing, every snapshot shows what its own job was told, and a job that
fails leaves no trace.
-/

namespace CalendarDial.Refresh

open Linear (Solver)

/-- The job has taken a number and has yet to publish under it. -/
def Job.hasCounted : Job → Bool
  | .publishing _ _ => true
  | _ => false

/-- Every snapshot that the job has published is for the one window that it asked the source for,
and shows the layout of the events that it was told. -/
def Record.Computed (solver : Solver) (settings : LayoutSettings) (record : Record) : Prop :=
  ∀ snapshot ∈ record.published, ∃ window events, record.asked = [(window, .events events)] ∧
    snapshot.window = some window ∧
    outcomeForWith solver settings window events = .ok snapshot.outcome

/-- If the job has failed, it has published nothing and has left the snapshot and the counter as its
request found them. Otherwise it has published one snapshot, under the next number. In either case
the flag is down. -/
structure Report.Settled (report : Report) : Prop where
  failed : Failed report.record.asked report.ending →
    report.record.published = [] ∧ report.left.published = report.record.found.published ∧
      report.left.generation = report.record.found.generation
  succeeded : ¬ Failed report.record.asked report.ending →
    report.record.published = [report.left.published] ∧
      report.left.published.generation = report.record.found.generation + 1 ∧
      report.left.generation = report.record.found.generation + 1
  flag : report.left.inFlight = false

/-- What can be relied on at any moment: at most one job is active, the flag is up exactly when one
is, and a request is accepted exactly when none is; the counter shows the number of the published
snapshot, or the next one between counting and publishing; the accounts are right; every publication
was computed by its own job; and every job that has ended has published or has changed nothing. -/
structure History.Safe (solver : Solver) (settings : LayoutSettings) (history : History) :
    Prop where
  alone : history.pipeline.jobs.length ≤ 1
  flag : history.pipeline.inFlight = true ↔ history.pipeline.jobs.length = 1
  accepting : history.pipeline.request.2 = true ↔ history.pipeline.jobs = []
  counter : history.pipeline.generation =
    if history.pipeline.jobs.any Job.hasCounted then history.pipeline.published.generation + 1
    else history.pipeline.published.generation
  accounts :
    history.memory.Accounts (Pipeline.new settings).published history.pipeline.published
  computed : ∀ record ∈ history.memory.records, record.Computed solver settings
  settled : ∀ report ∈ history.memory.ended, report.Settled

namespace UnderWay

variable {solver : Solver} {settings : LayoutSettings} {found pipeline : Pipeline} {record : Record}

/-- The counter is ahead of the published snapshot just while the job has counted. At rest the two
numbers are the same, counting advances one of them, and publishing the other. -/
theorem counter (way : UnderWay solver found pipeline record) (rest : found.AtRest settings) :
    pipeline.generation =
      if pipeline.jobs.any Job.hasCounted then pipeline.published.generation + 1
      else pipeline.published.generation := by
  have counted := rest.counted
  cases way with
  | publishing => exact congrArg (· + 1) counted
  | leaving => rfl
  | _ => exact counted

/-- What the job has published by now was computed from what it was told. Only a job that is about
to leave after a success has published, and it has carried its outcome along since it was
computed. -/
theorem computed (way : UnderWay solver found pipeline record) (rest : found.AtRest settings) :
    record.Computed solver settings := by
  rw [← rest.settings]
  intro snapshot published
  cases way with
  | leaving window events outcome made =>
    obtain rfl := List.mem_singleton.mp published
    exact ⟨window, events, rfl, rfl, made⟩
  | _ => cases published

end UnderWay

namespace Complete

variable {solver : Solver} {settings : LayoutSettings} {found : Pipeline} {report : Report}

/-- What the job has published was computed from what it was told. A turn that failed has published
nothing, and a completed one the snapshot that it computed. -/
theorem computed (complete : Complete solver found report) (rest : found.AtRest settings) :
    report.record.Computed solver settings := by
  rw [← rest.settings]
  intro snapshot published
  cases complete with
  | failed => cases published
  | completed window events outcome made =>
    obtain rfl := List.mem_singleton.mp published
    exact ⟨window, events, rfl, rfl, made⟩

/-- A completed job has not failed. It did not break down, and the one reply it got was no
failure. -/
theorem not_failed (window : Window) (events : List RawEvent) :
    ¬ Failed [(window, .events events)] .completed := by
  rintro (impossible | ⟨other, error, impossible⟩)
  · cases impossible
  · simp at impossible

/-- A job that has ended has published or has changed nothing. The report of a failed turn holds the
pipeline that the request found, and that of a completed one the same pipeline renewed. -/
theorem settled (complete : Complete solver found report) (rest : found.AtRest settings) :
    report.Settled := by
  cases complete with
  | failed asked ending cause =>
    exact ⟨fun _ => ⟨rfl, rfl, rfl⟩, fun success => absurd cause success, rest.idle⟩
  | completed window events =>
    exact ⟨fun failed => absurd failed (not_failed window events), fun _ => ⟨rfl, rfl, rfl⟩,
      rest.idle⟩

end Complete

/-- Every accepted request has a record whose publications were computed from what its job was told.
Its job has ended in a complete turn or is the one of the turn under way. -/
theorem Orderly.computed {solver : Solver} {settings : LayoutSettings} {pipeline : Pipeline}
    {memory : Memory} (orderly : Orderly solver settings pipeline memory) (record : Record)
    (listed : record ∈ memory.records) : record.Computed solver settings := by
  rcases List.mem_append.mp listed with ended | now
  · obtain ⟨report, present, rfl⟩ := List.mem_map.mp ended
    obtain ⟨found, rest, complete⟩ := orderly.complete report present
    exact complete.computed rest
  · rcases orderly.turn with ⟨-, active⟩ | ⟨found, only, rest, active, way⟩
    · rw [active] at now
      cases now
    · rw [active] at now
      obtain rfl := List.mem_singleton.mp now
      exact way.computed rest

/-- Whatever happens to a new pipeline, in whatever order, the history is safe at every moment. The
solver can be any function of the program that it is given. Turns are kept, so the pipeline is at
rest or in one of the states of a turn, and in each of these the conditions can be read off. -/
theorem run_safe (solver : Solver) (settings : LayoutSettings) (around : Surroundings)
    (happenings : List Happening) :
    (History.run solver settings around happenings).Safe solver settings := by
  have orderly := orderly_run solver settings around happenings
  have settled (report : Report)
      (ended : report ∈ (History.run solver settings around happenings).memory.ended) :
      report.Settled := by
    obtain ⟨found, rest, complete⟩ := orderly.complete report ended
    exact complete.settled rest
  rcases orderly.turn with ⟨rest, -⟩ | ⟨found, record, rest, -, way⟩
  · refine ⟨?_, ?_, ?_, ?_, orderly.accounts, orderly.computed, settled⟩
    · simp [rest.empty]
    · simp [rest.empty, rest.idle]
    · simp [rest.request, rest.empty]
    · simp [rest.empty, rest.counted]
  · obtain ⟨flag, single⟩ := way.occupied
    have some : (History.run solver settings around happenings).pipeline.jobs ≠ [] := by
      intro none
      simp [none] at single
    refine ⟨?_, ?_, ?_, way.counter rest, orderly.accounts, orderly.computed, settled⟩
    · omega
    · simp [flag, single]
    · simp [Pipeline.request, flag, some]

/-- A first job is refused by the source, a second one publishes, and a reader looks after each of
them. Two of the four requests come while a job is active. -/
example :
    (History.run Bands.solver ⟨.greedy, .greedy, 10⟩ ⟨⟨1800000, 0⟩, .failure .permissionDenied⟩
      [.request, .work 0, .request, .work 0, .work 0, .read, .source (.events []), .request,
        .work 0, .work 0, .work 0, .work 0, .request, .work 0, .work 0,
        .read]).memory.reads.map Snapshot.generation = [0, 1] := by
  cbv

/-- One happening advances the counter by one at most. Only a job that counts touches the counter,
and a happening is at most one step of one job. -/
theorem Pipeline.generation_meet_le (solver : Solver) (pipeline : Pipeline) (around : Surroundings)
    (happening : Happening) :
    (pipeline.meet solver around happening).generation ≤ pipeline.generation + 1 := by
  cases happening with
  | request =>
    simp only [meet, request]
    split <;> simp
  | work index =>
    simp only [meet, advanceWith]
    split <;> simp [move]
  | crash index =>
    simp only [meet, crash]
    split <;> simp [move]
  | _ => exact Nat.le_succ _

/-- The counter is at most the number of happenings, so that a counter of 64 bits overflows in no
history that is shorter than its range. It is zero at the start, and no happening advances it by
more than one. -/
theorem generation_run_le (solver : Solver) (settings : LayoutSettings) (around : Surroundings)
    (happenings : List Happening) :
    (History.run solver settings around happenings).pipeline.generation ≤ happenings.length := by
  refine History.induction_run solver settings around
    (fun happenings history => history.pipeline.generation ≤ happenings.length) (Nat.le_refl 0)
    ?_ happenings
  intro happenings history happening bounded
  have step : (history.next solver happening).pipeline.generation ≤
      history.pipeline.generation + 1 :=
    history.pipeline.generation_meet_le solver history.around happening
  rw [List.length_append, List.length_singleton]
  omega

end CalendarDial.Refresh
