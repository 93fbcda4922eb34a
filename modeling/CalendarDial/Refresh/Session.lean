import CalendarDial.Refresh.Pipeline

/-!
# A dial in use

A session is a pipeline together with its clock and its source, both of which can be changed, and
with one reader, who may keep a snapshot and may ask whether anything has been published since it
last looked. The session counts how often the source has been asked and remembers for which window.

A refresh can be carried out at once, or it can be held at the source: then other things may happen
before the source answers, and it answers what it would say at that later moment.
-/

namespace CalendarDial.Refresh

/-- A change of the clock or of the source. -/
inductive Change where
  | clock (now : ZonedTime)
  | advance (ms : Int)
  | reply (reply : Reply)
deriving DecidableEq

/-- What happens while the dial looks after itself: its surroundings change, the calendar reports a
change, many such reports come in at once, or it is time to look at the clock again. -/
inductive Occurrence where
  | change (change : Change)
  | notified
  | burst (count : Nat)
  | period
deriving DecidableEq

/-- What can be done in a session. -/
inductive Action where
  | change (change : Change)
  | refresh
  | tick
  | begin
  | beginTick
  | finish
  | snapshot
  | window
  | subscribe
  | look
  | keep
  | compare
  | run (occurrences : List Occurrence)

/-- What became of one occurrence: how often the source was asked, and the generation published
then. -/
structure LogEntry where
  fetched : Nat
  generation : Nat
deriving DecidableEq

/-- What an action shows beyond the state of the session. -/
inductive Result where
  | nothing
  | notStarted
  | settled (ending : Option Ending)
  | begun (started : Bool)
  | published
  | window (window : Window)
  | news (news : Option (Bool × Nat))
  | kept (kept : Option (Snapshot × Bool))
  | log (entries : List LogEntry)

/-- The state of a session. -/
structure Session where
  pipeline : Pipeline
  around : Surroundings
  fetches : Nat
  fetchWindow : Option Window
  kept : Option Snapshot
  seen : Option Nat

namespace Session

/-- A session in which nothing has been done yet. -/
def new (settings : LayoutSettings) (now : ZonedTime) (events : List RawEvent) : Session :=
  ⟨Pipeline.new settings, ⟨now, .events events⟩, 0, none, none, none⟩

/-- The session with a change of the clock or of the source. -/
def apply (session : Session) : Change → Session
  | .clock now => { session with around.now := now }
  | .advance ms => { session with around.now.utcMs := session.around.now.utcMs + ms }
  | .reply reply => { session with around.reply := reply }

/-- Brings an accepted refresh to the point where it asks the source. -/
def ask (session : Session) : Session :=
  let pipeline := session.pipeline.advance 0 session.around
  match pipeline.jobs.head? with
  | some (.fetching window) =>
    { session with pipeline, fetches := session.fetches + 1, fetchWindow := some window }
  | _ => { session with pipeline }

/-- Lets the refresh under way come to its end. -/
def finish (session : Session) : Session × Option Ending :=
  let (pipeline, ending) := session.pipeline.settle session.around
  ({ session with pipeline }, ending)

/-- Requests a refresh, and brings it to the source if the request is accepted. -/
def beginRefresh (session : Session) : Session × Bool :=
  let (pipeline, started) := session.pipeline.request
  if started then ({ session with pipeline }.ask, true) else (session, false)

/-- Looks at the clock, and brings a refresh to the source if one starts. -/
def beginTick (session : Session) : Except Overflow (Session × Bool) := do
  let (pipeline, started) ← session.pipeline.tick session.around.now
  pure (if started then ({ session with pipeline }.ask, true) else (session, false))

/-- Finishes what was begun, if anything was. -/
def conclude : Session × Bool → Session × Result
  | (session, true) =>
    let (session, ending) := session.finish
    (session, .settled ending)
  | (session, false) => (session, .notStarted)

/-- Requests a refresh many times over, so that all but the first request find one under way. -/
def beginBurst : Nat → Session → Session
  | 0, session => session
  | count + 1, session => beginBurst count session.beginRefresh.1

/-- One occurrence, with all work done that it causes. -/
def meet (session : Session) : Occurrence → Except Overflow Session
  | .change change => pure (session.apply change)
  | .notified => pure session.beginRefresh.1.finish.1
  | .burst count => pure (beginBurst count session).finish.1
  | .period => do pure (← session.beginTick).1.finish.1

/-- The log entry for what happened between two states. -/
def entry (before after : Session) : LogEntry :=
  ⟨after.fetches - before.fetches, after.pipeline.published.generation⟩

/-- All occurrences in turn, with the log of them. -/
def meetAll (session : Session) : List Occurrence → Except Overflow (Session × List LogEntry)
  | [] => pure (session, [])
  | occurrence :: occurrences => do
    let after ← session.meet occurrence
    let (last, log) ← after.meetAll occurrences
    pure (last, entry session after :: log)

/-- The dial looks after itself: it looks at the clock at once and then meets what occurs. -/
def run (session : Session) (occurrences : List Occurrence) :
    Except Overflow (Session × List LogEntry) :=
  session.meetAll (.period :: occurrences)

/-- What a reader sees who looks for news, and the session after it has looked. -/
def look (session : Session) : Session × Option (Bool × Nat) :=
  let generation := session.pipeline.published.generation
  match session.seen with
  | none => (session, none)
  | some seen => ({ session with seen := some generation }, some (seen != generation, generation))

/-- The snapshot kept, and whether it is still the one published. -/
def comparison (session : Session) : Option (Snapshot × Bool) :=
  session.kept.map fun kept =>
    (kept, kept.generation == session.pipeline.published.generation)

/-- Does one thing. -/
def act (session : Session) : Action → Except Overflow (Session × Result)
  | .change change => pure (session.apply change, .nothing)
  | .refresh => pure (conclude session.beginRefresh)
  | .tick => do pure (conclude (← session.beginTick))
  | .begin => do
    let (session, started) := session.beginRefresh
    pure (session, .begun started)
  | .beginTick => do
    let (session, started) ← session.beginTick
    pure (session, .begun started)
  | .finish => do
    let (session, ending) := session.finish
    pure (session, .settled ending)
  | .snapshot => pure (session, .published)
  | .window => do pure (session, .window (← Pipeline.currentWindow session.around.now))
  | .subscribe =>
    pure ({ session with seen := some session.pipeline.published.generation }, .nothing)
  | .look => do
    let (session, news) := session.look
    pure (session, .news news)
  | .keep => pure ({ session with kept := some session.pipeline.published }, .nothing)
  | .compare => pure (session, .kept session.comparison)
  | .run occurrences => do
    let (session, log) ← session.run occurrences
    pure (session, .log log)

end Session

end CalendarDial.Refresh
