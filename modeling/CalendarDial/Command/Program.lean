import CalendarDial.Command.Invocation
import CalendarDial.Config.Sources

/-!
# The program

The program reads its arguments and then its settings, if the command has any use for them, and
ends in one of a few ways. Everything that it would look up elsewhere is given to it: the contents
of files, the environment and the local clock.
-/

namespace CalendarDial.Command

/-- What the program finds where it runs: events files and files of settings by their paths, the
user's own file of settings, the variables of the environment, and the local clock. -/
structure Host where
  eventsFile : String → Option ByteArray
  settingsFile : String → Option ByteArray
  userFile : Option ByteArray
  environment : List (String × String)
  clock : LocalClock

/-- How the program ends, or that it is to watch an events file from now on. -/
inductive Ending where
  | help
  | version
  | misuse
  | output (text : String)
  | failure (error : CommandError)
  | watch (path : String) (settings : Settings)

namespace Ending

/-- The ending after the reading of arguments has stopped. -/
def ofStop : Stop → Ending
  | .help => help
  | .version => version
  | .misuse => misuse

/-- The ending of a command that gives its output or fails. -/
def ofResult : Except CommandError String → Ending
  | .ok text => output text
  | .error error => failure error

/-- The exit code: one after a failure, two after arguments that make no sense, and otherwise
zero. -/
def exitCode : Ending → Nat
  | failure _ => 1
  | misuse => 2
  | _ => 0

/-- The line about a failure. Of a message that runs over several lines it has the first. -/
def errorLine (error : CommandError) : String :=
  "Error: " ++ String.ofList (error.message.toList.takeWhile (· ≠ '\n'))

end Ending

/-- The line about the version. -/
def versionLine : String := "calface 0.1.0\n"

namespace Host

/-- The settings, with a file of them named or not. -/
def settings (host : Host) (path : Option String) : Except CommandError Settings :=
  let sources : Config.Sources :=
    ⟨host.userFile, path.bind host.settingsFile, host.environment⟩
  match sources.settings? with
  | some settings => .ok settings
  | none => .error .unreadableSettings

/-- Does what is asked for. -/
def perform (host : Host) : Invocation → Ending
  | .layout request settingsPath => .ofResult do
    let settings ← host.settings settingsPath
    Command.layout request (host.eventsFile request.path) settings.layout host.clock
  | .window time => .ofResult (Command.window time host.clock)
  | .watch path settingsPath =>
    match host.settings settingsPath with
    | .ok settings => .watch path settings
    | .error error => .failure error

/-- Runs the program with the given arguments. -/
def run (host : Host) (arguments : List String) : Ending :=
  match Invocation.ofArguments arguments with
  | .ok invocation => host.perform invocation
  | .error stop => .ofStop stop

end Host

end CalendarDial.Command
