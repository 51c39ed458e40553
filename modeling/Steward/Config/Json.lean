import Steward.Config.Basic
import Steward.Json.Printer

/-!
# Settings as JSON

All sections and fields; an absent option is `null`.
-/

namespace Steward

def optionalText : Option String → Json.Value
  | some s => .text s
  | none => .null

def ServerOptions.toJson (o : ServerOptions) : Json.Value :=
  .ofMembers [("enable_streamable_http", .bool o.enableStreamableHttp), ("port", .nat o.port),
    ("verbose", .bool o.verbose)]

def ToolSettings.toJson (t : ToolSettings) : Json.Value :=
  .ofMembers [("source", .text t.source), ("toolchain", .text t.toolchain),
    ("search_path", optionalText t.searchPath)]

def UpdateSettings.toJson (u : UpdateSettings) : Json.Value :=
  .ofMembers [("check_on_activation", .bool u.checkOnActivation), ("repository", .text u.repository),
    ("default_branch", .text u.defaultBranch), ("api_base", .text u.apiBase),
    ("excluded_tag_prefix", .text u.excludedTagStart), ("timeout_secs", .nat u.timeoutSeconds)]

def LoggingSettings.toJson (l : LoggingSettings) : Json.Value :=
  .ofMembers [("level", .text l.level), ("file_enabled", .bool l.fileEnabled),
    ("file_path", optionalText l.filePath)]

def Config.toJson (c : Config) : Json.Value :=
  .ofMembers [("server", c.server.toJson), ("tool", c.tool.toJson), ("update", c.update.toJson),
    ("logging", c.logging.toJson)]

end Steward
