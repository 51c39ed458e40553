/-!
# Settings

The settings in four sections. Every field has a default, which stands wherever a file says nothing.
-/

namespace Steward

/-- What is read anew at each start of the server. -/
structure ServerOptions where
  enableStreamableHttp : Bool := false
  port : Nat := 8555
  verbose : Bool := false
  deriving Repr, DecidableEq

structure ToolSettings where
  /-- where the tool is installed from: a module path, `@` and a version -/
  source : String := "github.com/xieyuschen/go-mcp-server/mcpgo@latest"
  /-- the command that installs and inspects tools, in shell words -/
  toolchain : String := "go"
  /-- where the tool is looked for, in place of the environment's search path -/
  searchPath : Option String := none
  deriving Repr, DecidableEq

structure UpdateSettings where
  checkOnActivation : Bool := true
  repository : String := "xieyuschen/go-mcp-server"
  defaultBranch : String := "master"
  apiBase : String := "https://api.github.com"
  /-- tags that start with it are no releases of the tool -/
  excludedTagStart : String := "vscext"
  timeoutSeconds : Nat := 5
  deriving Repr, DecidableEq

structure LoggingSettings where
  level : String := "info"
  fileEnabled : Bool := true
  /-- the directory of the log files -/
  filePath : Option String := none
  deriving Repr, DecidableEq

structure Config where
  server : ServerOptions := {}
  tool : ToolSettings := {}
  update : UpdateSettings := {}
  logging : LoggingSettings := {}
  deriving Repr, DecidableEq

end Steward
