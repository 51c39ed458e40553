import Steward.Config.Places
import Steward.Files
import Steward.Journal.Filter
import Steward.Text.Case
import Steward.Text.Quoted

/-!
# The journal

The program's own events, kept apart from what the server says. The journal is set up at most once; it
goes to a file of its own in the log directory, to the console, or to both. A first attempt that fails
leaves the program without a journal for good.
-/

namespace Steward

namespace Journal

structure Event where
  level : Level
  target : String
  text : String
  deriving Repr, DecidableEq

/-- Where the events of this program itself come from. -/
def ownTarget : String := "go_mcp_supervisor::logging"

/-- The event of one operation on a process or tool. -/
def operation (target subject name event details : String) : Event :=
  ⟨.info, target, subject ++ "=" ++ Text.quoted name ++ " event=" ++ Text.quoted event ++
    " details=" ++ Text.quoted details⟩

def processEvent (name event details : String) : Event :=
  operation "process" "process" name event details

def installEvent (tool event details : String) : Event := operation "install" "tool" tool event details

def updateEvent (tool event details : String) : Event := operation "update" "tool" tool event details

end Journal

structure Journal where
  /-- whether setting it up has been attempted -/
  attempted : Bool := false
  /-- which events are recorded, once it is set up -/
  filter : Option Journal.Filter := none
  /-- the file it goes to -/
  file : Option String := none
  /-- what was recorded, earliest first -/
  events : List Journal.Event := []
  deriving Repr, DecidableEq

namespace Journal

/-- Records an event that passes the filter. -/
def record (j : Journal) (e : Event) : Journal :=
  match j.filter with
  | some f => if f.passes e.level e.target then { j with events := j.events ++ [e] } else j
  | none => j

def recordAll (j : Journal) (es : List Event) : Journal := es.foldl record j

/-- Makes the log directory, if there is to be a file. -/
def prepare (fs : Files) (v : Variables) (l : LoggingSettings) :
    Except Failure (Option String × Files) := do
  if !l.fileEnabled then return (none, fs)
  let directory ← match l.filePath with
    | some path => pure path
    | none => (Config.directory v).map fun dir => Path.join dir "logs"
  match fs.makeDirectories directory with
  | .ok fs => return (some directory, fs)
  | .error e => throw (.config ("Failed to create log directory: " ++ e.message))

/-- The filter: what the environment asks for, else the level of the settings. -/
def chooseFilter (v : Variables) (level : String) : Except Failure Filter :=
  match (v.get? "RUST_LOG").bind fun text => Filter.parse text.toList with
  | some f => .ok f
  | none =>
    match Filter.parse level.toList with
    | some f => .ok f
    | none => .error (.config ("Invalid log level '" ++ level ++ "'"))

/-- The first attempt to set up the journal of a component. -/
def establish (fs : Files) (v : Variables) (l : LoggingSettings) (component : String)
    (console : Bool) : Except Failure Journal × Files :=
  let level := String.ofList (Text.lower l.level.toList)
  match prepare fs v l with
  | .error e => (.error e, fs)
  | .ok (directory, fs) =>
    match chooseFilter v level with
    | .error e => (.error e, fs)
    | .ok filter =>
      match directory with
      | none =>
        if console then
          (.ok { attempted := true, filter := some filter }, fs)
        else
          (.error (.config "File logging must be enabled when console logging is off"), fs)
      | some directory =>
        let path := Path.join directory (component ++ ".log")
        let fs := match fs.openForWriting path with
          | .ok (_, fs) => fs
          | .error _ => fs
        let j : Journal := { attempted := true, filter := some filter, file := some path }
        (.ok (j.recordAll
          [⟨.info, ownTarget, component ++ " logging initialized with level: " ++ level⟩,
            ⟨.info, ownTarget, "Log file: " ++ path⟩]), fs)

/-- Sets up the journal unless that has been attempted before. -/
def setUp (j : Journal) (fs : Files) (v : Variables) (l : LoggingSettings) (component : String)
    (console : Bool) : Option Failure × Journal × Files :=
  if j.attempted then (none, j, fs)
  else
    match establish fs v l component console with
    | (.ok j, fs) => (none, j, fs)
    | (.error e, fs) => (some e, { j with attempted := true }, fs)

/-- The journal of the long-running command. -/
def setUpSupervisor (j : Journal) (fs : Files) (v : Variables) (l : LoggingSettings)
    (console : Bool) : Option Failure × Journal × Files :=
  match j.setUp fs v l "supervisor" console with
  | (none, j, fs) => (none, j.record ⟨.debug, ownTarget, "Supervisor logging initialized"⟩, fs)
  | failed => failed

/-- The level of a short command: quiet, unless the user or the settings ask for details. -/
def commandLevel (l : LoggingSettings) (verbose : Bool) : String :=
  if verbose then "debug"
  else
    let lowered := String.ofList (Text.lower l.level.toList)
    if lowered == "debug" || lowered == "trace" then l.level else "warn"

/-- The journal of the short commands. -/
def setUpCommand (j : Journal) (fs : Files) (v : Variables) (l : LoggingSettings) (verbose : Bool) :
    Option Failure × Journal × Files :=
  match j.setUp fs v { l with level := commandLevel l verbose } "cli" true with
  | (none, j, fs) => (none, j.record ⟨.debug, ownTarget, "CLI logging initialized"⟩, fs)
  | failed => failed

end Journal

end Steward
