import Steward.Config.Basic
import Steward.Failure
import Steward.Path
import Steward.Variables

/-!
# Where settings and logs are kept

In a directory of the user's home, unless the settings name another one for the logs.
-/

namespace Steward.Config

def directoryName : String := ".go-mcp-supervisor"

def noHome : Failure := .config "Could not determine home directory"

def directory (v : Variables) : Except Failure String :=
  match (v.get? "HOME").orElse fun _ => v.get? "USERPROFILE" with
  | some home => .ok (Path.join home directoryName)
  | none => .error noHome

/-- Where the settings are read from if the command line does not say. -/
def defaultPath (v : Variables) : Except Failure String := do
  return Path.join (← directory v) "config.toml"

/-- Where the logs are, also without a home. -/
def logDirectory (v : Variables) (l : LoggingSettings) : String :=
  match l.filePath with
  | some path => path
  | none =>
    match directory v with
    | .ok dir => Path.join dir "logs"
    | .error _ => Path.join directoryName "logs"

end Steward.Config
