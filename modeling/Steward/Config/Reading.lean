import Steward.Config.Basic
import Steward.Record
import Steward.Text.Numeral
import Steward.Toml.Document

/-!
# Reading settings

Each section is a record with named fields. What a document leaves out takes its default, what it
says in excess is passed over, and a value of the wrong type makes the whole document unreadable.
-/

namespace Steward

def ServerOptions.ofDatum (surplus : Surplus) (d : Datum) : Option ServerOptions := do
  match ← Field.ofDatum surplus ["enable_streamable_http", "port", "verbose"] d with
  | [http, port, verbose] =>
    let default : ServerOptions := {}
    return {
      enableStreamableHttp := ← http.orDefault Datum.flag? default.enableStreamableHttp
      port := ← port.orDefault (Datum.natural? Text.maxU16) default.port
      verbose := ← verbose.orDefault Datum.flag? default.verbose }
  | _ => none

def ToolSettings.ofDatum (surplus : Surplus) (d : Datum) : Option ToolSettings := do
  match ← Field.ofDatum surplus ["source", "toolchain", "search_path"] d with
  | [source, toolchain, searchPath] =>
    let default : ToolSettings := {}
    return {
      source := ← source.orDefault Datum.text? default.source
      toolchain := ← toolchain.orDefault Datum.text? default.toolchain
      searchPath := ← searchPath.optional Datum.text? }
  | _ => none

def UpdateSettings.ofDatum (surplus : Surplus) (d : Datum) : Option UpdateSettings := do
  match ← Field.ofDatum surplus ["check_on_activation", "repository", "default_branch", "api_base",
      "excluded_tag_prefix", "timeout_secs"] d with
  | [check, repository, branch, apiBase, excluded, timeout] =>
    let default : UpdateSettings := {}
    return {
      checkOnActivation := ← check.orDefault Datum.flag? default.checkOnActivation
      repository := ← repository.orDefault Datum.text? default.repository
      defaultBranch := ← branch.orDefault Datum.text? default.defaultBranch
      apiBase := ← apiBase.orDefault Datum.text? default.apiBase
      excludedTagStart := ← excluded.orDefault Datum.text? default.excludedTagStart
      timeoutSeconds := ← timeout.orDefault (Datum.natural? Text.maxU64) default.timeoutSeconds }
  | _ => none

def LoggingSettings.ofDatum (surplus : Surplus) (d : Datum) : Option LoggingSettings := do
  match ← Field.ofDatum surplus ["level", "file_enabled", "file_path"] d with
  | [level, fileEnabled, filePath] =>
    let default : LoggingSettings := {}
    return {
      level := ← level.orDefault Datum.text? default.level
      fileEnabled := ← fileEnabled.orDefault Datum.flag? default.fileEnabled
      filePath := ← filePath.optional Datum.text? }
  | _ => none

def Config.ofDatum (surplus : Surplus) (d : Datum) : Option Config := do
  match ← Field.ofDatum surplus ["server", "tool", "update", "logging"] d with
  | [server, tool, update, logging] =>
    return {
      server := ← server.orDefault (ServerOptions.ofDatum surplus) {}
      tool := ← tool.orDefault (ToolSettings.ofDatum surplus) {}
      update := ← update.orDefault (UpdateSettings.ofDatum surplus) {}
      logging := ← logging.orDefault (LoggingSettings.ofDatum surplus) {} }
  | _ => none

/-- The settings in a JSON value. -/
def Config.ofJson? (v : Json.Value) : Option Config := Config.ofDatum .refused (.ofJson v)

/-- The settings in a TOML document. -/
def Config.ofToml? (es : Toml.Entries) : Option Config :=
  Config.ofDatum .ignored (.members (Datum.ofTomlEntries es))

/-- The settings in a TOML text. -/
def Config.parse (cs : List Char) : Option Config := (Toml.parse cs).bind Config.ofToml?

/-- The server options alone, whatever the other sections hold. -/
def ServerOptions.ofToml? (es : Toml.Entries) : Option ServerOptions := do
  match ← Field.ofDatum .ignored ["server"] (.members (Datum.ofTomlEntries es)) with
  | [server] => server.orDefault (ServerOptions.ofDatum .ignored) {}
  | _ => none

def ServerOptions.parse (cs : List Char) : Option ServerOptions :=
  (Toml.parse cs).bind ServerOptions.ofToml?

end Steward
