import Std.Time.Zoned.Database
import CalendarDial.Command.Help
import CalendarDial.Refresh.Pipeline

/-!
# The command line program

Here is what the program does to the world around it: it looks up the time, the rules of the local
zone, the environment and the files that it is asked to read, and it prints.

Watching a file goes on until the program is stopped. Once a second it is looked up when the file
was last modified. A change of that counts as a report that the calendar has changed, whether or not
the content is another one. The clock is looked at as often as the settings say.
-/

namespace CalendarDial.Main

open Command Refresh

/-- The rules of the local zone, which is the one that the environment names or else the one of the
machine, if they can be read. -/
def zoneRules? : IO (Option Std.Time.TimeZone.ZoneRules) := do
  let named? ← IO.getEnv "TZ"
  try
    match named? with
    | some name => some <$> Std.Time.Database.defaultGetZoneRules name
    | none => some <$> Std.Time.Database.defaultGetLocalZoneRules
  catch _ => pure none

/-- The local clock. It is without offset where the rules of the local zone cannot be read. -/
def localClock : IO LocalClock := do
  let zone? ← zoneRules?
  let offsetAt (utcMs : Int) : Int :=
    match zone? with
    | some zone => (zone.timezoneAt (.ofMillisecondsSinceUnixEpoch ⟨utcMs⟩)).offset.second.val
    | none => 0
  pure ⟨(← Std.Time.Timestamp.now).toMillisecondsSinceUnixEpoch.val, offsetAt⟩

/-- The content of a file, if it can be read. -/
def readFile? (path : String) : IO (Option ByteArray) := do
  try pure (some (← IO.FS.readBinFile path)) catch _ => pure none

/-- When a file was last modified, if that can be found out. -/
def modified? (path : String) : IO (Option IO.FS.SystemTime) := do
  try pure (some (← ((← IO.currentDir) / path).metadata).modified) catch _ => pure none

/-- The directory with the given path and those around it, the innermost first. -/
def directories (path : String) : List String :=
  let steps := (path.splitOn "/").filter (· ≠ "")
  (List.range (steps.length + 1)).map fun count =>
    String.join ((steps.take (steps.length - count)).map ("/" ++ ·))

/-- The content of the first file that can be read. -/
def readFirst? : List String → IO (Option ByteArray)
  | [] => pure none
  | path :: paths => do
    match ← readFile? path with
    | some content => pure (some content)
    | none => readFirst? paths

/-- The content of a file of settings. A relative path is looked for in the working directory and
then in the directories around it. -/
def readSettings? (path : String) : IO (Option ByteArray) := do
  if path.startsWith "/" then
    readFile? path
  else
    readFirst? ((directories (toString (← IO.currentDir))).map (· ++ "/" ++ path))

/-- The user's own file of settings. -/
def readUserSettings? : IO (Option ByteArray) := do
  let base ← match ← IO.getEnv "XDG_CONFIG_HOME" with
    | some path =>
      if path.startsWith "/" then pure (some path)
      else pure ((← IO.getEnv "HOME").map (· ++ "/.config"))
    | none => pure ((← IO.getEnv "HOME").map (· ++ "/.config"))
  match base with
  | some path => readFile? (path ++ "/calface/config.toml")
  | none => pure none

/-- The variables of the environment. -/
def environment : IO (List (String × String)) := do
  let content := ((← readFile? "/proc/self/environ").bind String.fromUTF8?).getD ""
  pure <| (content.splitOn "\x00").filterMap fun entry =>
    match entry.splitOn "=" with
    | name :: value :: rest => some (name, "=".intercalate (value :: rest))
    | _ => none

/-- What the program finds where it runs, as far as the given arguments make it look. -/
def host (arguments : List String) : IO Host := do
  let invocation := (Invocation.ofArguments arguments).toOption
  let events ← match invocation.bind Invocation.eventsPath? with
    | some path => readFile? path
    | none => pure none
  let settings ← match invocation.bind Invocation.settingsPath? with
    | some path => readSettings? path
    | none => pure none
  pure {
    eventsFile := fun _ => events
    settingsFile := fun _ => settings
    userFile := ← readUserSettings?
    environment := ← environment
    clock := ← localClock }

/-- Prints a published layout. -/
def printSnapshot (snapshot : Snapshot) : IO Unit := do
  match snapshot.window.map fun window => Report.layoutText window snapshot.outcome with
  | some (.ok text) =>
    let output ← IO.getStdout
    output.putStr (text ++ "\n")
    output.flush
  | _ => pure ()

/-- Watches an events file. The time of its modification is the one looked up last, and the seconds
are those until the clock is to be looked at again. -/
partial def watch (path : String) (period : Nat) (pipeline : Pipeline)
    (modified : Option IO.FS.SystemTime) (seconds : Nat) : IO Unit := do
  let current ← modified? path
  let around : Surroundings := ⟨(← localClock).now, .ofFile path (← readFile? path)⟩
  let requested :=
    if current == modified then pipeline else (pipeline.request.1.settle around).1
  let ticked := match seconds, requested.tick around.now with
    | 0, .ok (next, _) => (next.settle around).1
    | _, _ => requested
  if ticked.published.generation ≠ pipeline.published.generation then
    printSnapshot ticked.published
  IO.sleep 1000
  watch path period ticked current (if seconds = 0 then period - 1 else seconds - 1)

end CalendarDial.Main

open CalendarDial Main Command in
/-- Runs the program with the arguments from the command line. -/
def main (arguments : List String) : IO UInt32 := do
  let ending := (← host arguments).run arguments
  match ending with
  | .watch path settings =>
    let modified ← modified? path
    watch path (max settings.tickSeconds 1) (Refresh.Pipeline.new settings.layout) modified 0
  | .failure error => IO.eprintln (Command.Ending.errorLine error)
  | .misuse => IO.eprintln "error: these arguments make no sense, see --help"
  | _ => IO.print (ending.output?.getD "")
  pure ending.exitCode.toUInt32
