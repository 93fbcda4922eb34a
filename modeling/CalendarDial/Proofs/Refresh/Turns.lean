import CalendarDial.Proofs.Refresh.History

/-!
# Refreshes take turns

The flag, the counter and the published snapshot change at different moments, and a job may fail in
between. What keeps them together is that jobs take turns: a request is accepted only by a pipeline
at rest, and from there on the pipeline is in one of a few states until its job has left. If the job
has failed, the pipeline is then the one that the request had found; otherwise it is the same but
for one more publication.

So everything that ever happens is a sequence of complete turns, followed by at most one that is
under way, and the numbers of the published snapshots count the turns that did not fail.
-/

namespace CalendarDial.Refresh

open Linear (Solver)

namespace Pipeline

/-- No job is active, and the counter shows the number of what was published last. -/
structure AtRest (settings : LayoutSettings) (pipeline : Pipeline) : Prop where
  settings : pipeline.settings = settings
  idle : pipeline.inFlight = false
  empty : pipeline.jobs = []
  counted : pipeline.generation = pipeline.published.generation

/-- The pipeline while a job is active. -/
def occupied (pipeline : Pipeline) (job : Job) : Pipeline :=
  { pipeline with inFlight := true, jobs := [job] }

/-- The snapshot that comes after those that have been counted. -/
def successor (pipeline : Pipeline) (window : Window) (outcome : LayoutOutcome) : Snapshot :=
  ⟨pipeline.generation + 1, some window, outcome⟩

/-- The pipeline after one more publication. -/
def renewed (pipeline : Pipeline) (window : Window) (outcome : LayoutOutcome) : Pipeline :=
  { pipeline with
    generation := pipeline.generation + 1
    published := pipeline.successor window outcome }

/-- A pipeline at rest that was occupied is itself again once the job has left. Its flag was down
and no job was active before, so both are put back to what they were. -/
theorem AtRest.vacated {settings : LayoutSettings} {pipeline : Pipeline}
    (rest : pipeline.AtRest settings) :
    { pipeline with inFlight := false, jobs := [] } = pipeline := by
  obtain ⟨-, idle, empty, -⟩ := rest
  rw [← idle, ← empty]

/-- A pipeline at rest is at rest after one more publication. The counter and the published snapshot
are advanced together. -/
theorem AtRest.renewed {settings : LayoutSettings} {pipeline : Pipeline}
    (rest : pipeline.AtRest settings) (window : Window) (outcome : LayoutOutcome) :
    (pipeline.renewed window outcome).AtRest settings :=
  ⟨rest.settings, rest.idle, rest.empty, rfl⟩

/-- A new pipeline is at rest. Nothing has been counted, and the first snapshot to be read has the
number zero. -/
theorem atRest_new (settings : LayoutSettings) : (new settings).AtRest settings :=
  ⟨rfl, rfl, rfl, rfl⟩

/-- A request is accepted by a pipeline at rest. Its flag is down, and the new job is the only
one. -/
theorem AtRest.request {settings : LayoutSettings} {pipeline : Pipeline}
    (rest : pipeline.AtRest settings) :
    pipeline.request = (pipeline.occupied .readingClock, true) := by
  simp [Pipeline.request, occupied, rest.idle, rest.empty]

end Pipeline

/-- The job broke down, or the source failed it. -/
def Failed (asked : List (Window × Reply)) (ending : Ending) : Prop :=
  ending = .crashed ∨ ∃ window error, (window, .failure error) ∈ asked

/-- One turn that is under way: the pipeline that the request found, the pipeline now, and the
record of the job. -/
inductive UnderWay (solver : Solver) (found : Pipeline) : Pipeline → Record → Prop
  | readingClock :
    UnderWay solver found (found.occupied .readingClock) ⟨found, [], []⟩
  | fetching (window : Window) :
    UnderWay solver found (found.occupied (.fetching window)) ⟨found, [], []⟩
  | computing (window : Window) (events : List RawEvent) :
    UnderWay solver found (found.occupied (.computing window events))
      ⟨found, [(window, .events events)], []⟩
  | counting (window : Window) (events : List RawEvent) (outcome : LayoutOutcome)
      (made : outcomeForWith solver found.settings window events = .ok outcome) :
    UnderWay solver found (found.occupied (.counting window events outcome))
      ⟨found, [(window, .events events)], []⟩
  | publishing (window : Window) (events : List RawEvent) (outcome : LayoutOutcome)
      (made : outcomeForWith solver found.settings window events = .ok outcome) :
    UnderWay solver found
      ({ found with generation := found.generation + 1 }.occupied
        (.publishing events (found.successor window outcome)))
      ⟨found, [(window, .events events)], []⟩
  | leaving (window : Window) (events : List RawEvent) (outcome : LayoutOutcome)
      (made : outcomeForWith solver found.settings window events = .ok outcome) :
    UnderWay solver found ((found.renewed window outcome).occupied (.leaving .completed))
      ⟨found, [(window, .events events)], [found.successor window outcome]⟩
  | failing (asked : List (Window × Reply)) (ending : Ending) (cause : Failed asked ending) :
    UnderWay solver found (found.occupied (.leaving ending)) ⟨found, asked, []⟩

/-- One job is active during a turn, and the flag is up. Every state that a turn goes through is
occupied by its job. -/
theorem UnderWay.occupied {solver : Solver} {found pipeline : Pipeline} {record : Record}
    (way : UnderWay solver found pipeline record) :
    pipeline.inFlight = true ∧ pipeline.jobs.length = 1 := by
  cases way <;> exact ⟨rfl, rfl⟩

/-- One complete turn, as it is reported. -/
inductive Complete (solver : Solver) (found : Pipeline) : Report → Prop
  | failed (asked : List (Window × Reply)) (ending : Ending) (cause : Failed asked ending) :
    Complete solver found ⟨⟨found, asked, []⟩, ending, found⟩
  | completed (window : Window) (events : List RawEvent) (outcome : LayoutOutcome)
      (made : outcomeForWith solver found.settings window events = .ok outcome) :
    Complete solver found
      ⟨⟨found, [(window, .events events)], [found.successor window outcome]⟩, .completed,
        found.renewed window outcome⟩

/-- The publications are those of the jobs, numbered from one, the last of them is the one to be
read, and readers got nothing else. -/
structure Memory.Accounts (initial published : Snapshot) (memory : Memory) : Prop where
  own : memory.publications = memory.records.flatMap Record.published
  numbered :
    memory.publications.map Snapshot.generation = List.range' 1 memory.publications.length
  latest : published = memory.publications.getLastD initial
  reads : ∀ snapshot ∈ memory.reads, snapshot = initial ∨ snapshot ∈ memory.publications

namespace Memory

variable {initial published : Snapshot} {memory : Memory}

/-- Accounts stay right as long as nothing is published or read. Nothing in them depends on the
active jobs or on how jobs have ended, except through what these have published. -/
theorem Accounts.keep (accounts : memory.Accounts initial published) (other : Memory)
    (records : other.records.flatMap Record.published =
      memory.records.flatMap Record.published)
    (publications : other.publications = memory.publications)
    (reads : other.reads = memory.reads) : other.Accounts initial published := by
  obtain ⟨own, numbered, latest, got⟩ := accounts
  constructor
  · rw [records, publications, own]
  · rw [publications, numbered]
  · rw [publications, latest]
  · rw [publications, reads]
    exact got

/-- A reader who gets what is published leaves the accounts right. What is published is the last
publication, or the snapshot that was there before any. -/
theorem Accounts.read (accounts : memory.Accounts initial published) :
    { memory with reads := memory.reads ++ [published] }.Accounts initial published := by
  obtain ⟨own, numbered, latest, got⟩ := accounts
  refine ⟨own, numbered, latest, ?_⟩
  intro snapshot present
  rcases List.mem_append.mp present with before | now
  · exact got snapshot before
  · obtain rfl := List.mem_singleton.mp now
    by_cases none : memory.publications = []
    · left
      rw [latest, none]
      rfl
    · right
      rw [latest, List.getLastD_eq_getLast?, List.getLast?_eq_some_getLast none]
      exact List.getLast_mem none

/-- The number of the last publication is how many there have been. The publications are numbered
from one on without gaps, and before the first of them the number is zero. -/
theorem Accounts.generation_eq (accounts : memory.Accounts initial published)
    (zero : initial.generation = 0) : published.generation = memory.publications.length := by
  obtain ⟨-, numbered, latest, -⟩ := accounts
  rw [latest]
  rcases List.eq_nil_or_concat memory.publications with none | ⟨earlier, last, split⟩
  · rw [none]
    exact zero
  · rw [split, List.concat_eq_append] at numbered ⊢
    rw [List.map_append, List.length_append, List.length_singleton, List.range'_concat] at numbered
    have same := (List.append_inj' numbered rfl).2
    simp at same ⊢
    omega

/-- One more publication with the next number leaves the accounts right. The next number is the one
after how many publications there have been, so the numbering goes on without a gap. -/
theorem Accounts.publish (accounts : memory.Accounts initial published)
    (zero : initial.generation = 0) (snapshot : Snapshot)
    (next : snapshot.generation = published.generation + 1) (other : Memory)
    (records : other.records.flatMap Record.published =
      memory.records.flatMap Record.published ++ [snapshot])
    (publications : other.publications = memory.publications ++ [snapshot])
    (reads : other.reads = memory.reads) : other.Accounts initial snapshot := by
  have count := accounts.generation_eq zero
  obtain ⟨own, numbered, latest, got⟩ := accounts
  constructor
  · rw [records, publications, own]
  · rw [publications, List.map_append, List.length_append, List.length_singleton,
      List.range'_concat, numbered, List.map_singleton, next, count, Nat.one_mul, Nat.add_comm]
  · simp [publications]
  · rw [publications, reads]
    intro read present
    exact (got read present).imp_right (List.mem_append_left [snapshot])

end Memory

/-- Only complete turns have been taken, but for one that may be under way. -/
structure Orderly (solver : Solver) (settings : LayoutSettings) (pipeline : Pipeline)
    (memory : Memory) : Prop where
  turn : (pipeline.AtRest settings ∧ memory.active = []) ∨
    ∃ found record, found.AtRest settings ∧ memory.active = [record] ∧
      UnderWay solver found pipeline record
  complete : ∀ report ∈ memory.ended, ∃ found : Pipeline, found.AtRest settings ∧
    Complete solver found report
  accounts : memory.Accounts (Pipeline.new settings).published pipeline.published

namespace Orderly

variable {solver : Solver} {settings : LayoutSettings} {found pipeline after : Pipeline}
  {memory : Memory} {asked more : List (Window × Reply)}

/-- A request does not disturb the turns. It is refused while one is under way, because the flag is
up then. Otherwise it begins the next turn, with a record in which nothing has been asked or
published. -/
theorem request (orderly : Orderly solver settings pipeline memory) (reply : Reply) :
    Orderly solver settings pipeline.request.1
      (memory.note pipeline pipeline.request.1 reply .request) := by
  obtain ⟨turn, complete, accounts⟩ := orderly
  rcases turn with ⟨rest, active⟩ | ⟨found, record, rest, active, way⟩
  · have accepted := rest.request
    simp only [Memory.note, accepted, if_true, active, List.nil_append]
    refine ⟨.inr ⟨pipeline, _, rest, rfl, .readingClock⟩, complete, ?_⟩
    refine accounts.keep _ ?_ rfl rfl
    simp [Memory.records, active]
  · obtain ⟨busy, -⟩ := way.occupied
    have refused : pipeline.request = (pipeline, false) := by simp [Pipeline.request, busy]
    simp only [Memory.note, refused]
    exact ⟨.inr ⟨found, record, rest, active, way⟩, complete, accounts⟩

/-- A turn goes on when its job takes a step that publishes nothing. The record is replaced by one
that has published just as little, so the accounts are kept. -/
theorem stay (orderly : Orderly solver settings pipeline memory)
    (active : memory.active = [⟨found, asked, []⟩]) (rest : found.AtRest settings)
    (same : after.published = pipeline.published)
    (way : UnderWay solver found after ⟨found, more, []⟩) :
    Orderly solver settings after { memory with active := [⟨found, more, []⟩] } := by
  obtain ⟨-, complete, accounts⟩ := orderly
  refine ⟨.inr ⟨found, _, rest, rfl, way⟩, complete, ?_⟩
  rw [same]
  refine accounts.keep _ ?_ rfl rfl
  simp [Memory.records, active]

/-- A turn goes on when its job publishes the snapshot that comes next. The counter of the pipeline
that the turn began with is the number of its last publication, and the snapshot has the next
one. -/
theorem publish {window : Window} {outcome : LayoutOutcome}
    (orderly : Orderly solver settings pipeline memory)
    (active : memory.active = [⟨found, asked, []⟩]) (rest : found.AtRest settings)
    (before : pipeline.published = found.published)
    (now : after.published = found.successor window outcome)
    (way : UnderWay solver found after ⟨found, asked, [found.successor window outcome]⟩) :
    Orderly solver settings after
      { memory with
        active := [⟨found, asked, [found.successor window outcome]⟩]
        publications := memory.publications ++ [found.successor window outcome] } := by
  obtain ⟨-, complete, accounts⟩ := orderly
  refine ⟨.inr ⟨found, _, rest, rfl, way⟩, complete, ?_⟩
  have numbered : (found.successor window outcome).generation =
      pipeline.published.generation + 1 := by
    rw [before, ← rest.counted]
    rfl
  rw [now]
  refine accounts.publish rfl _ numbered _ ?_ rfl rfl
  simp [Memory.records, active]

/-- A turn ends when its job leaves. What it published is accounted for. The record moves from the
active jobs to the ended ones, and what it published moves with it. -/
theorem leave {record : Record} {ending : Ending}
    (orderly : Orderly solver settings pipeline memory) (active : memory.active = [record])
    (same : after.published = pipeline.published) (rest : found.AtRest settings)
    (complete : Complete solver found ⟨record, ending, after⟩) (atRest : after.AtRest settings) :
    Orderly solver settings after
      { memory with active := [], ended := memory.ended ++ [⟨record, ending, after⟩] } := by
  obtain ⟨-, before, accounts⟩ := orderly
  refine ⟨.inl ⟨atRest, rfl⟩, ?_, ?_⟩
  · intro report present
    rcases List.mem_append.mp present with earlier | now
    · exact before report earlier
    · obtain rfl := List.mem_singleton.mp now
      exact ⟨found, rest, complete⟩
  · rw [same]
    refine accounts.keep _ ?_ rfl rfl
    simp [Memory.records, active]

/-- The only job there can be is that of the turn under way. At rest there is none, and during a
turn there is a single one, at the first place. -/
theorem missing_or_underWay (orderly : Orderly solver settings pipeline memory) (index : Nat) :
    pipeline.jobs[index]? = none ∨ index = 0 ∧ ∃ found record, found.AtRest settings ∧
      memory.active = [record] ∧ UnderWay solver found pipeline record := by
  rcases orderly.turn with ⟨rest, -⟩ | underWay
  · left
    simp [rest.empty]
  · by_cases first : index = 0
    · exact .inr ⟨first, underWay⟩
    · left
      obtain ⟨found, record, -, -, way⟩ := underWay
      have single := way.occupied.2
      apply List.getElem?_eq_none
      omega

/-- A step of a job does not disturb the turns. There is one case for each state of a turn, and what
the job does next depends on the clock, on the reply of the source or on whether there is an
outcome. Only the publishing and the leaving job touch anything besides the job and its record. -/
theorem work (orderly : Orderly solver settings pipeline memory) (around : Surroundings)
    (index : Nat) :
    Orderly solver settings (pipeline.advanceWith solver index around)
      (memory.note pipeline (pipeline.advanceWith solver index around) around.reply
        (.work index)) := by
  rcases orderly.missing_or_underWay index with missing | ⟨rfl, found, record, rest, active, way⟩
  · simp only [Pipeline.advanceWith, Memory.note, missing]
    exact orderly
  · obtain ⟨_, ended, publications, reads⟩ := memory
    obtain rfl := active
    cases way with
    | readingClock =>
      show Orderly solver settings (found.occupied (Pipeline.afterClock around.now))
        ⟨[⟨found, [], []⟩], ended, publications, reads⟩
      rw [Pipeline.afterClock]
      cases Pipeline.currentWindow around.now with
      | ok window => exact orderly.stay rfl rest rfl (.fetching window)
      | error _ => exact orderly.stay rfl rest rfl (.failing [] .crashed (.inl rfl))
    | fetching window =>
      show Orderly solver settings (found.occupied (Pipeline.afterFetch window around.reply))
        ⟨[⟨found, [(window, around.reply)], []⟩], ended, publications, reads⟩
      cases around.reply with
      | events events => exact orderly.stay rfl rest rfl (.computing window events)
      | failure error =>
        exact orderly.stay rfl rest rfl
          (.failing _ .completed (.inr ⟨window, error, List.mem_singleton_self _⟩))
      | crash => exact orderly.stay rfl rest rfl (.failing _ .crashed (.inl rfl))
    | computing window events =>
      show Orderly solver settings
        (found.occupied (Pipeline.afterComputing solver found.settings window events))
        ⟨[⟨found, [(window, .events events)], []⟩], ended, publications, reads⟩
      rw [Pipeline.afterComputing]
      cases made : outcomeForWith solver found.settings window events with
      | ok outcome => exact orderly.stay rfl rest rfl (.counting window events outcome made)
      | error _ => exact orderly.stay rfl rest rfl (.failing _ .crashed (.inl rfl))
    | counting window events outcome made =>
      exact orderly.stay rfl rest rfl (.publishing window events outcome made)
    | publishing window events outcome made =>
      exact orderly.publish rfl rest rfl rfl (.leaving window events outcome made)
    | leaving window events outcome made =>
      have later := rest.renewed window outcome
      have left : ((found.renewed window outcome).occupied
          (.leaving .completed)).advanceWith solver 0 around = found.renewed window outcome :=
        later.vacated
      rw [left]
      exact orderly.leave rfl rfl rest (.completed window events outcome made) later
    | failing asked ending cause =>
      have left : (found.occupied (.leaving ending)).advanceWith solver 0 around = found :=
        rest.vacated
      rw [left]
      exact orderly.leave rfl rfl rest (.failed asked ending cause) rest

/-- A breakdown of a job does not disturb the turns. While the clock is read, the source is asked or
the layout is computed, it makes the job leave without a publication; in every other state nothing
can break down. -/
theorem crash (orderly : Orderly solver settings pipeline memory) (index : Nat) :
    Orderly solver settings (pipeline.crash index) memory := by
  rcases orderly.missing_or_underWay index with missing | ⟨rfl, found, record, rest, active, way⟩
  · simp only [Pipeline.crash, missing]
    exact orderly
  · obtain ⟨_, ended, publications, reads⟩ := memory
    obtain rfl := active
    cases way with
    | readingClock => exact orderly.stay rfl rest rfl (.failing [] .crashed (.inl rfl))
    | fetching window => exact orderly.stay rfl rest rfl (.failing [] .crashed (.inl rfl))
    | computing window events => exact orderly.stay rfl rest rfl (.failing _ .crashed (.inl rfl))
    | counting => exact orderly
    | publishing => exact orderly
    | leaving => exact orderly
    | failing => exact orderly

/-- Nothing that can happen disturbs the turns. The clock and the source are not part of the
pipeline, and a reader gets what is published. -/
theorem meet (orderly : Orderly solver settings pipeline memory) (around : Surroundings)
    (happening : Happening) :
    Orderly solver settings (pipeline.meet solver around happening)
      (memory.note pipeline (pipeline.meet solver around happening) around.reply happening) := by
  cases happening with
  | request => exact orderly.request around.reply
  | read => exact ⟨orderly.turn, orderly.complete, orderly.accounts.read⟩
  | clock _ => exact orderly
  | source _ => exact orderly
  | work index => exact orderly.work around index
  | crash index => exact orderly.crash index

end Orderly

/-- Turns are kept from the start, whatever happens. A new pipeline is at rest with nothing to
remember, and no single happening disturbs the turns. -/
theorem orderly_run (solver : Solver) (settings : LayoutSettings) (around : Surroundings)
    (happenings : List Happening) :
    Orderly solver settings (History.run solver settings around happenings).pipeline
      (History.run solver settings around happenings).memory := by
  have initial : Orderly solver settings (Pipeline.new settings) Memory.empty := by
    refine ⟨.inl ⟨Pipeline.atRest_new settings, rfl⟩, ?_, rfl, rfl, rfl, ?_⟩
    · intro report impossible
      cases impossible
    · intro snapshot impossible
      cases impossible
  exact History.induction_run solver settings around
    (fun _ history => Orderly solver settings history.pipeline history.memory) initial
    (fun _ history happening orderly => orderly.meet history.around happening) happenings

end CalendarDial.Refresh
