import CalendarDial.Config.Environment
import CalendarDial.Config.Layers
import CalendarDial.Toml.Document

/-!
# Where settings come from

Settings come from the user's own file, from a file named on the command line, and from the
environment, which has the last word. A file that is missing says nothing. A file that is not TOML
in UTF-8 leaves no settings at all, even if it would have been overruled.
-/

namespace CalendarDial.Config

/-- The contents of the two files, where there are such files, and the variables of the
environment. -/
structure Sources where
  userFile : Option ByteArray
  namedFile : Option ByteArray
  environment : List (String × String)

namespace Sources

/-- The layer that a file gives. -/
def fileLayer? : Option ByteArray → Option Value
  | none => some (.table [])
  | some content => (String.fromUTF8? content).bind Toml.parse?

/-- The settings that the sources give. -/
def settings? (sources : Sources) : Option Settings := do
  ofLayers? [
    ← fileLayer? sources.userFile, ← fileLayer? sources.namedFile,
    ofEnvironment sources.environment]

end Sources

end CalendarDial.Config
