import CalendarDial.Command.Program

/-!
# Help

The text that answers a request for help.
-/

namespace CalendarDial.Command

/-- How the program is used. -/
def helpText : String :=
  "Lays out calendar events on a twelve-hour dial.\n\n" ++
  "Usage: calface [OPTIONS] [COMMAND]\n\n" ++
  "Commands:\n" ++
  "  layout  Lay out the events of a file for one window\n" ++
  "  window  Show the window for a time\n" ++
  "  watch   Keep the layout of an events file current\n" ++
  "  help    Show this text\n\n" ++
  "Options:\n" ++
  "  -v, --verbose          Say more about what is done\n" ++
  "  -c, --config <PATH>    File with settings\n" ++
  "  -h, --help             Show this text\n" ++
  "  -V, --version          Show the version\n\n" ++
  "Options of layout and watch:\n" ++
  "  -i, --input <PATH>     File with a JSON array of events\n\n" ++
  "Options of layout and window:\n" ++
  "      --at <TIME>        Time to show, ISO 8601 or such as \"2 hours ago\"\n\n" ++
  "Options of layout:\n" ++
  "      --engine <NAME>    Engine to try first: constraint or greedy\n" ++
  "      --json             Report as JSON\n"

namespace Ending

/-- What the program prints when it ends in this way. -/
def output? : Ending → Option String
  | help => some helpText
  | version => some versionLine
  | output text => some text
  | _ => none

end Ending

end CalendarDial.Command
