import Steward.Files
import Steward.OutputLog.Entry

/-!
# The output log as a file

The log of a tool is a file of its own in the log directory. It is opened once and written to behind
whatever stands in it; once closed, further entries are dropped.
-/

namespace Steward

/-- A log that was opened; `place` is there until it is closed. -/
structure OutputLog where
  path : String
  place : Option Place
  deriving Repr, DecidableEq

namespace OutputLog

def pathFor (name directory : String) : String := Path.join directory (name ++ ".log")

/-- Opens the log of a tool, making the directory and the file if need be. -/
def openAt (fs : Files) (name directory : String) : Except OsError (OutputLog × Files) := do
  let fs ← fs.makeDirectories directory
  let path := pathFor name directory
  let (place, fs) ← fs.openForWriting path
  return (⟨path, some place⟩, fs)

/-- Writes one entry. -/
def append (log : OutputLog) (fs : Files) (now : Timestamp) (level : Level) (message : String) :
    Files :=
  match log.place with
  | some place => fs.change place (· ++ Text.Utf8.encode (Entry.make now level message).render)
  | none => fs

def close (log : OutputLog) : OutputLog := { log with place := none }

/-- The entries in a file, at most the last `max`; a missing file has none. -/
def load (fs : Files) (path : String) (max : Option Nat) : Except Failure (List Entry) :=
  if !fs.exists? path then .ok []
  else
    match fs.read path with
    | .error e => .error (.io e.message)
    | .ok bytes =>
      match ofBytes bytes max with
      | .ok entries => .ok entries
      | .error fault => .error (.io fault.message)

end OutputLog

end Steward
