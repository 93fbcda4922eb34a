import CalendarDial.Command.Arguments
import CalendarDial.Command.Run

/-!
# What is asked for on the command line

Options that concern all commands can stand before the name of the command or after it; where both
say something, the later one counts. Without a command there is only help to give. The word `help`,
perhaps with the name of a command, asks for it too.
-/

namespace CalendarDial.Command

/-- The commands. -/
inductive CommandName where
  | layout
  | window
  | watch
deriving DecidableEq

namespace CommandName

/-- The command with the given name. -/
def ofText? : String → Option CommandName
  | "layout" => some layout
  | "window" => some window
  | "watch" => some watch
  | _ => none

/-- The options that may follow the name of a command. -/
def options : CommandName → List OptionName
  | layout => [.help, .verbose, .config, .input, .time, .engine, .json]
  | window => [.help, .verbose, .config, .time]
  | watch => [.help, .verbose, .config, .input]

end CommandName

/-- The options that may stand before the name of a command. -/
def commonOptions : List OptionName := [.help, .version, .verbose, .config]

/-- What is asked for. The last path of the layout and watch commands is that of the file with
settings. -/
inductive Invocation where
  | layout (request : LayoutRequest) (settingsPath : Option String)
  | window (time : Option String)
  | watch (path : String) (settingsPath : Option String)

namespace Invocation

/-- The path of the events file that is to be read. -/
def eventsPath? : Invocation → Option String
  | layout request _ => some request.path
  | window _ => none
  | watch path _ => some path

/-- The path of the file with settings that is to be read. -/
def settingsPath? : Invocation → Option String
  | layout _ settingsPath => settingsPath
  | window _ => none
  | watch _ settingsPath => settingsPath

/-- What a command is asked, given its options and those before its name. -/
def ofReadings (command : CommandName) (options common : Reading) : Option Invocation :=
  let settingsPath := (options.value? .config).or (common.value? .config)
  match command with
  | .layout => do
    let path ← options.value? .input
    let engine := (options.value? .engine).bind engineNamed?
    pure (.layout ⟨path, options.value? .time, engine, options.has .json⟩ settingsPath)
  | .window => some (.window (options.value? .time))
  | .watch => do pure (.watch (← options.value? .input) settingsPath)

/-- Reads the arguments of a command, after the common options. -/
def ofCommand (common : Reading) (command : CommandName) (arguments : List String) :
    Except Stop Invocation := do
  let (options, rest) ← Reading.start.arguments command.options arguments
  if rest.isEmpty then
    let options ← options.settle
    match ofReadings command options (← common.settle) with
    | some invocation => pure invocation
    | none => .error .misuse
  else
    .error .misuse

/-- The answer to a request for help, given what follows the word. -/
def help : List String → Stop
  | [] => .help
  | [name] => if (CommandName.ofText? name).isSome ∨ name = "help" then .help else .misuse
  | _ => .misuse

/-- Reads the arguments of the program. -/
def ofArguments (arguments : List String) : Except Stop Invocation := do
  let (common, rest) ← Reading.start.arguments commonOptions arguments
  match rest with
  | [] => do
    let _ ← common.settle
    .error .help
  | "help" :: names => .error (help names)
  | name :: arguments =>
    match CommandName.ofText? name with
    | some command => ofCommand common command arguments
    | none => .error .misuse

end Invocation

end CalendarDial.Command
