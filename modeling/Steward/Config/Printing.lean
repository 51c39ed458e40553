import Steward.Config.Basic
import Steward.Toml.Printer

/-!
# Writing settings

All sections and fields are written, in a fixed order; absent options are left out.
-/

namespace Steward

/-- A field that is written only if it is there. -/
def optionalLine (key : String) : Option String → List (String × Toml.Plain)
  | some s => [(key, .text s)]
  | none => []

def ServerOptions.lines (o : ServerOptions) : List (String × Toml.Plain) :=
  [("enable_streamable_http", .flag o.enableStreamableHttp), ("port", .natural o.port),
    ("verbose", .flag o.verbose)]

def ToolSettings.lines (t : ToolSettings) : List (String × Toml.Plain) :=
  [("source", .text t.source), ("toolchain", .text t.toolchain)] ++
    optionalLine "search_path" t.searchPath

def UpdateSettings.lines (u : UpdateSettings) : List (String × Toml.Plain) :=
  [("check_on_activation", .flag u.checkOnActivation), ("repository", .text u.repository),
    ("default_branch", .text u.defaultBranch), ("api_base", .text u.apiBase),
    ("excluded_tag_prefix", .text u.excludedTagStart), ("timeout_secs", .natural u.timeoutSeconds)]

def LoggingSettings.lines (l : LoggingSettings) : List (String × Toml.Plain) :=
  [("level", .text l.level), ("file_enabled", .flag l.fileEnabled)] ++
    optionalLine "file_path" l.filePath

/-- The TOML text of the settings. -/
def Config.render (c : Config) : List Char :=
  Toml.renderSections [("server", c.server.lines), ("tool", c.tool.lines),
    ("update", c.update.lines), ("logging", c.logging.lines)]

end Steward
