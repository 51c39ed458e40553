import Steward.CommandLine.Report
import Steward.Config.Places
import Steward.Config.Printing
import Steward.OutputLog.File
import Steward.Tool.Identity
import Steward.Tool.Locator

/-!
# Commands that only look

They read files and report; nothing is started or changed.
-/

namespace Steward.CommandLine

/-- The tool that the settings name. -/
def identity (c : Config) : Except Failure Tool.Identity :=
  match Tool.Identity.parse c.tool.source with
  | .ok i => .ok i
  | .error fault => .error fault.failure

/-- Where the tool is. -/
def locate (fs : Files) (v : Variables) (c : Config) : Except Failure Report := do
  let tool ← identity c
  match Tool.locate fs v tool.binaryName c.tool.searchPath with
  | some path => return .success path
  | none => return .failure (tool.display ++ " is not installed")

/-- The end of the tool's output log. -/
def logs (fs : Files) (v : Variables) (c : Config) (lines : Option Nat) : Except Failure Report := do
  let tool ← identity c
  let path := OutputLog.pathFor tool.binaryName (Config.logDirectory v c.logging)
  return .success (OutputLog.display (← OutputLog.load fs path lines))

/-- The settings in use and where they are from. -/
def showConfig (path : String) (c : Config) : Report :=
  .success ("# " ++ path ++ "\n" ++ String.ofList (Text.trimEnd c.render))

end Steward.CommandLine
