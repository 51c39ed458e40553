import Std.Time.DateTime.Timestamp
import Steward.Rehearsal.Sitting

/-!
# The command line

The files that an invocation looks at are taken over into a machine of its own, the command is carried
out there while lines of input come in, and the files that have changed are written back. What is done
is decided elsewhere; here bytes are only moved.
-/

namespace Steward.Main

open Steward.Rehearsal (Sitting Ending)

/-! ## Files -/

/-- A path from the root. -/
def fromRoot (here path : String) : String := Path.join here path

/-- Takes a file over, if it is there. Whoever can read it here can execute it there. -/
def takeOver (here : String) (fs : Files) (path : String) : IO Files := do
  let path := fromRoot here path
  try
    let bytes ← IO.FS.readBinFile path
    let fs := match (Path.parent? path).map fs.makeDirectories with
      | some (.ok fs) => fs
      | _ => fs
    return fs.put (Path.pieces path) (.file bytes.toList 0o755)
  catch _ => return fs

/-- The files that an invocation looks at. -/
def filesFor (here : String) (fs : Files) (v : Variables) (i : CommandLine.Invocation) : IO Files := do
  let path := (CommandLine.settingsPath v i).1
  let fs ← takeOver here fs path
  let c := (CommandLine.settings fs path).1
  match CommandLine.serviceOf c with
  | .error _ => return fs
  | .ok s =>
    let name := s.identity.binaryName
    let log := OutputLog.pathFor name (Config.logDirectory v c.logging)
    (log :: s.toolchain.program :: Tool.candidates fs v name c.tool.searchPath).foldlM (takeOver here) fs

/-- Writes a file that has changed. -/
def giveBack (before : Files) (place : Place) (bytes : Text.Utf8.Bytes) : IO Unit := do
  let isSame := match before.node? place with
    | some (.file old _) => old == bytes
    | _ => false
  if isSame then return ()
  let path := Path.ofParts true place
  match Path.parent? path with
  | some parent => IO.FS.createDirAll parent
  | none => pure ()
  IO.FS.writeBinFile path ⟨bytes.toArray⟩

def giveBackAll (before after : Files) : IO Unit :=
  after.nodes.forM fun (place, n) =>
    match n with
    | .file bytes _ => giveBack before place bytes
    | _ => return ()

/-! ## The dialogue -/

/-- Prints what has come since the last time. -/
def flush (old new : Sitting) : IO Unit := do
  for line in new.station.terminal.stdout.drop old.station.terminal.stdout.length do
    IO.println line
  for line in new.station.terminal.stderr.drop old.station.terminal.stderr.length do
    IO.eprintln line

/-- Lets the time pass that has passed outside. -/
def catchUp (began : Nat) (s : Sitting) : IO Sitting := do
  let elapsed := (← IO.monoMsNow) - began
  return s.passThrough elapsed Sitting.patience

/-- Takes lines of input until the command is over. -/
partial def converse (began : Nat) (s : Sitting) : IO Sitting := do
  if s.isOver then return s
  let line ← (← IO.getStdin).getLine
  let s' ← catchUp began s
  let s' := if line.isEmpty then
      (s'.changeTerminal (·.endInput)).await fun _ => false
    else (s'.perform (.send line)).quiesce Sitting.patience
  flush s s'
  if line.isEmpty then return s' else converse began s'

/-! ## Everything -/

def variableNames : List String := ["HOME", "USERPROFILE", "PATH", "RUST_LOG"]

def environ : IO Variables := do
  let entries ← variableNames.filterMapM fun name => do
    return (← IO.getEnv name).map fun value => (name, value)
  return ⟨entries⟩

def exitCode : Option Ending → UInt32
  | some (.code n) => n.toUInt32
  | some (.signal s) => (128 + s.number).toUInt32
  | none => 1

/-- The time of the clock. -/
def now : IO Timestamp := do
  return .ofNanoseconds (← Std.Time.Timestamp.now).toNanosecondsSinceUnixEpoch.val.toNat

def run (args : List String) : IO UInt32 := do
  let here := (← IO.currentDir).toString
  let v ← environ
  let bare := { Machine.systemFiles with workingDirectory := Path.pieces here }
  let fs ← match CommandLine.parse args with
    | .ok i => filesFor here bare v i
    | .error _ => pure bare
  let station : Station := { machine := { files := fs }, environ := v, time := ← now }
  let blank := Sitting.idle station
  let s := (Sitting.begin station args).quiesce Sitting.patience
  flush blank s
  let s ← converse (← IO.monoMsNow) s
  giveBackAll fs s.station.machine.files
  return exitCode s.ending

end Steward.Main

def main (args : List String) : IO UInt32 := Steward.Main.run args
