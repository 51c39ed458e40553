import Steward.Failure
import Steward.Words

/-!
# The toolchain

The command that installs tools and reads the version out of an installed one. It is given as a
command line; the words behind the program are passed first in every call.
-/

namespace Steward.Tool

structure Toolchain where
  program : String := "go"
  baseArgs : List String := []
  deriving Repr, DecidableEq

/-- Why a command line names no toolchain. -/
inductive Toolchain.Fault where
  | unclosed (command : String)
  | empty
  deriving Repr, DecidableEq

namespace Toolchain

def Fault.text : Fault → String
  | .unclosed command => s!"Failed to parse toolchain command '{command}'"
  | .empty => "Empty toolchain command"

def Fault.failure (f : Fault) : Failure := .config f.text

def parse (command : String) : Except Fault Toolchain :=
  match Words.split command with
  | none => .error (.unclosed command)
  | some [] => .error .empty
  | some (program :: args) => .ok ⟨program, args⟩

/-- The arguments that install `source`. -/
def installArgs (t : Toolchain) (source : String) : List String :=
  t.baseArgs ++ ["install", source]

/-- The arguments that print the build information of the program at `path`. -/
def versionArgs (t : Toolchain) (path : String) : List String :=
  t.baseArgs ++ ["version", "-m", "-json", path]

/-- The install command as shown to people. -/
def describeInstall (t : Toolchain) (source : String) : String :=
  " ".intercalate (t.program :: t.installArgs source)

end Toolchain

end Steward.Tool
