import Steward.Config.Printing
import Steward.Config.Reading
import Steward.Config.Validity
import Steward.Files

/-!
# The settings file

A missing file stands for the defaults. All settings are read at once and checked; the server options
are also read alone, at each start, and then nothing in the file can make reading fail.
-/

namespace Steward

namespace Config

/-- The settings in a file. -/
def load (fs : Files) (path : String) : Except Failure Config := do
  if !fs.exists? path then return {}
  match Config.parse (← fs.readText path) with
  | none => throw .unreadableConfig
  | some c =>
    match c.check with
    | .ok () => return c
    | .error fault => throw fault.failure

/-- Writes the settings, making the directories on the way. -/
def save (fs : Files) (path : String) (c : Config) : Except Failure Files := do
  let io {α : Type} : Except OsError α → Except Failure α
    | .ok a => .ok a
    | .error e => .error (.io e.message)
  let fs ← match Path.parent? path with
    | some parent => io (fs.makeDirectories parent)
    | none => pure fs
  io (fs.write path (Text.Utf8.encode c.render))

end Config

namespace ServerOptions

/-- The server options in a file, if they can be read and used. -/
def read? (fs : Files) (path : String) : Option ServerOptions :=
  if !fs.exists? path then some {}
  else
    match fs.readText path with
    | .error _ => none
    | .ok text =>
      match ServerOptions.parse text with
      | none => none
      | some o =>
        match o.check with
        | .ok () => some o
        | .error _ => none

/-- The server options in a file, or the defaults. -/
def load (fs : Files) (path : String) : ServerOptions := (read? fs path).getD {}

end ServerOptions

end Steward
