import Steward.CommandLine.Basic
import Steward.CommandLine.Inspect
import Steward.Config.File
import Steward.Journal.Basic
import Steward.Service

/-!
# Before a command begins

Every invocation first finds its settings and sets up the journal. Neither can make it fail: what goes
wrong is told as a warning and defaults take the place.
-/

namespace Steward.CommandLine

/-- What an invocation begins with. -/
structure Prepared where
  configPath : String
  config : Config
  warnings : List String
  files : Files

/-- Where the settings are, and the warning if there is no home to look in. -/
def settingsPath (v : Variables) (i : Invocation) : String × List String :=
  match i.config, Config.defaultPath v with
  | some path, _ => (path, [])
  | none, .ok path => (path, [])
  | none, .error e =>
    ("config.toml", ["Warning: " ++ e.message ++ ", falling back to ./config.toml"])

/-- The settings, and the warning if they cannot be used. -/
def settings (fs : Files) (path : String) : Config × List String :=
  match Config.load fs path with
  | .ok c => (c, [])
  | .error e =>
    ({}, ["Warning: Failed to load configuration from " ++ path ++ ": " ++ e.message ++
      ", using defaults"])

/-- Sets up the journal that the command gets. -/
def setUpJournal (fs : Files) (v : Variables) (c : Config) (i : Invocation) : List String × Files :=
  let j : Journal := {}
  let (failure, _, fs) := match i.command with
    | .run _ => j.setUpSupervisor fs v c.logging i.verbose
    | _ => j.setUpCommand fs v c.logging i.verbose
  match failure with
  | some e => (["Warning: Failed to initialize logging: " ++ e.message], fs)
  | none => ([], fs)

def prepare (fs : Files) (v : Variables) (i : Invocation) : Prepared :=
  let (path, homeless) := settingsPath v i
  let (config, unusable) := settings fs path
  let (unlogged, fs) := setUpJournal fs v config i
  { configPath := path, config := config, warnings := homeless ++ unusable ++ unlogged, files := fs }

/-- The report of a command that could not be carried out. -/
def refused (e : Failure) : Report := .failure ("Failed to execute command: " ++ e.message)

/-- The report of a command that only looks; `none` for the others. -/
def look (p : Prepared) (v : Variables) : Command → Option Report
  | .locate => some (settle (locate p.files v p.config))
  | .logs lines => some (settle (logs p.files v p.config lines))
  | .config => some (showConfig p.configPath p.config)
  | .run _ => none
  | .checkUpdate _ => none
where
  settle : Except Failure Report → Report
    | .ok r => r
    | .error e => refused e

/-- The service that the settings describe. -/
def serviceOf (c : Config) : Except Failure Service := do
  let tool ← identity c
  match Tool.Toolchain.parse c.tool.toolchain with
  | .error fault => throw fault.failure
  | .ok toolchain =>
    return {
      identity := tool
      toolchain := toolchain
      excludedTagStart := c.update.excludedTagStart
      checkOnActivation := c.update.checkOnActivation }

/-- Opens the output log of the service. -/
def openLog (fs : Files) (v : Variables) (c : Config) (s : Service) :
    Except Failure (OutputLog × Files) :=
  match OutputLog.openAt fs s.identity.binaryName (Config.logDirectory v c.logging) with
  | .ok opened => .ok opened
  | .error e => .error (.io e.message)

end Steward.CommandLine
