import Steward.Config.Basic
import Steward.Failure
import Steward.Text.Case
import Steward.Words

/-!
# Valid settings

Settings that can be read may still make no sense. `Config.check` looks at them in a fixed order and
names the first fault.
-/

namespace Steward

/-- What can be wrong with readable settings. -/
inductive Config.Fault where
  | portZero
  | timeoutZero
  | sourceForm (source : String)
  | toolchainForm (toolchain : String)
  | unknownLevel (level : String)
  deriving Repr, DecidableEq

namespace Config

def Fault.text : Fault → String
  | .portZero => "Server port must be between 1 and 65535"
  | .timeoutZero => "Update timeout must be greater than 0"
  | .sourceForm source => s!"Tool source '{source}' must be of the form <module-path>@<version>"
  | .toolchainForm toolchain => s!"Invalid toolchain command: '{toolchain}'"
  | .unknownLevel level => s!"Invalid logging level: {level}"

def Fault.failure (f : Fault) : Failure := .config f.text

def levels : List String := ["trace", "debug", "info", "warn", "error"]

end Config

def ServerOptions.check (o : ServerOptions) : Except Config.Fault Unit :=
  if o.port = 0 then .error .portZero else .ok ()

/-- Whether a toolchain command has at least one word. -/
def ToolSettings.hasToolchain (t : ToolSettings) : Bool :=
  match Words.split t.toolchain with
  | some (_ :: _) => true
  | _ => false

/-- The first fault, in the order of the sections' importance: port, timeout, source, toolchain,
level. -/
def Config.check (c : Config) : Except Config.Fault Unit := do
  c.server.check
  if c.update.timeoutSeconds = 0 then throw .timeoutZero
  if !c.tool.source.toList.contains '@' then throw (.sourceForm c.tool.source)
  if !c.tool.hasToolchain then throw (.toolchainForm c.tool.toolchain)
  if !Config.levels.contains (String.ofList (Text.lower c.logging.level.toList)) then
    throw (.unknownLevel c.logging.level)

end Steward
