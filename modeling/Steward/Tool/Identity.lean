import Steward.Failure
import Steward.Text.Blank

/-!
# The identity of a tool

A tool is named by its source, `<module path>@<qualifier>`. The qualifier follows the last `@`, and
the last segment of the module path is the name of the program.
-/

namespace Steward.Tool

structure Identity where
  source : String
  modulePath : String
  qualifier : String
  binaryName : String
  deriving Repr, DecidableEq

/-- Why a source names no tool. -/
inductive Identity.Fault where
  | noQualifier (source : String)
  | emptyPart (source : String)
  deriving Repr, DecidableEq

namespace Identity

def Fault.text : Fault → String
  | .noQualifier source => s!"Tool source '{source}' is missing an '@<version>' qualifier"
  | .emptyPart source => s!"Tool source '{source}' is not a valid module reference"

def Fault.failure (f : Fault) : Failure := .config f.text

/-- Reads a source; blanks around it do not count. -/
def parse (s : String) : Except Fault Identity :=
  let source := Text.trim s.toList
  match Text.splitLast '@' source with
  | none => .error (.noQualifier (String.ofList source))
  | some (path, qualifier) =>
    let binary := Text.afterLast '/' path
    if path.isEmpty || qualifier.isEmpty || binary.isEmpty then
      .error (.emptyPart (String.ofList source))
    else
      .ok ⟨String.ofList source, String.ofList path, String.ofList qualifier, String.ofList binary⟩

/-- How messages call the tool. -/
def display (i : Identity) : String := i.binaryName

end Identity

end Steward.Tool
