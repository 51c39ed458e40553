import Steward.Proofs.SettingsReaders

/-!
# What is struck from a settings file takes its default

A default is given twice: for a field that a section leaves out, and for a section that the document leaves out.
Both must say the same. Keys and whole sections are struck from a document (`Omission`), and what is left must
read as the settings of the document with the defaults in place of what was struck (`Config.reset`).
-/

set_option autoImplicit false

namespace Steward

/-! ## Striking settings from a document -/

namespace Toml.Value

/-- A table without some of its entries. Other values are left alone. -/
def without (gone : String → Bool) : Value → Value
  | .table kind es => .table kind (es.filter fun e => !gone e.1)
  | v => v

end Toml.Value

/-- Which sections are struck as a whole, and which keys of the other ones. -/
structure Omission where
  sections : String → Bool
  /-- by the section and the key -/
  keys : String → String → Bool

/-- What is left of a document. -/
def Omission.apply (o : Omission) (es : Toml.Entries) : Toml.Entries :=
  (es.map fun e => (e.1, e.2.without (o.keys e.1))).filter fun e => !o.sections e.1

namespace ServerOptions

/-- The defaults in place of some settings, by their keys. -/
def reset (gone : String → Bool) (o : ServerOptions) : ServerOptions :=
  let default : ServerOptions := {}
  { enableStreamableHttp :=
      if gone "enable_streamable_http" then default.enableStreamableHttp else o.enableStreamableHttp
    port := if gone "port" then default.port else o.port
    verbose := if gone "verbose" then default.verbose else o.verbose }

end ServerOptions

namespace ToolSettings

/-- The defaults in place of some settings, by their keys. -/
def reset (gone : String → Bool) (t : ToolSettings) : ToolSettings :=
  let default : ToolSettings := {}
  { source := if gone "source" then default.source else t.source
    toolchain := if gone "toolchain" then default.toolchain else t.toolchain
    searchPath := if gone "search_path" then default.searchPath else t.searchPath }

end ToolSettings

namespace UpdateSettings

/-- The defaults in place of some settings, by their keys. -/
def reset (gone : String → Bool) (u : UpdateSettings) : UpdateSettings :=
  let default : UpdateSettings := {}
  { checkOnActivation := if gone "check_on_activation" then default.checkOnActivation else u.checkOnActivation
    repository := if gone "repository" then default.repository else u.repository
    defaultBranch := if gone "default_branch" then default.defaultBranch else u.defaultBranch
    apiBase := if gone "api_base" then default.apiBase else u.apiBase
    excludedTagStart := if gone "excluded_tag_prefix" then default.excludedTagStart else u.excludedTagStart
    timeoutSeconds := if gone "timeout_secs" then default.timeoutSeconds else u.timeoutSeconds }

end UpdateSettings

namespace LoggingSettings

/-- The defaults in place of some settings, by their keys. -/
def reset (gone : String → Bool) (l : LoggingSettings) : LoggingSettings :=
  let default : LoggingSettings := {}
  { level := if gone "level" then default.level else l.level
    fileEnabled := if gone "file_enabled" then default.fileEnabled else l.fileEnabled
    filePath := if gone "file_path" then default.filePath else l.filePath }

end LoggingSettings

namespace Config

/-- The default settings in place of those that are struck. -/
def reset (o : Omission) (c : Config) : Config :=
  let default : Config := {}
  { server := if o.sections "server" then default.server else c.server.reset (o.keys "server")
    tool := if o.sections "tool" then default.tool else c.tool.reset (o.keys "tool")
    update := if o.sections "update" then default.update else c.update.reset (o.keys "update")
    logging := if o.sections "logging" then default.logging else c.logging.reset (o.keys "logging") }

end Config

/-! ## Single entries -/

namespace Field

variable {α : Type} {es : Toml.Entries} {name : String} {take : Field → Option α} {a b : α}

/-- The entry of that name, or its absence, is taken for `a`. -/
def Gives (es : Toml.Entries) (name : String) (take : Field → Option α) (a : α) : Prop :=
  ∃ f, byName (Datum.ofTomlEntries es) name = some f ∧ take f = some a

theorem gives_iff : Gives es name take a ↔
    ((es.filter fun e => e.1 == name) = [] ∧ take .omitted = some a) ∨
      ∃ v, (es.filter fun e => e.1 == name) = [(name, v)] ∧ take (.given (.ofToml v)) = some a := by
  have hfilter : (Datum.ofTomlEntries es).filter (fun m => m.1 == some name) =
      (es.filter fun e => e.1 == name).map fun e => (some e.1, Datum.ofToml e.2) := by
    rw [Datum.ofTomlEntries_eq_map, List.filter_map]
    rfl
  constructor
  · rintro ⟨f, hf, htake⟩
    obtain ⟨hnone, rfl⟩ | ⟨d, hone, rfl⟩ := byName_eq_some_iff.1 hf
    · rw [hfilter] at hnone
      exact .inl ⟨List.map_eq_nil_iff.1 hnone, htake⟩
    · rw [hfilter] at hone
      obtain ⟨⟨k, v⟩, hsole, hkv⟩ := List.map_eq_singleton_iff.1 hone
      obtain ⟨hk, rfl⟩ := Prod.mk.inj hkv
      obtain rfl := Option.some.inj hk
      exact .inr ⟨v, hsole, htake⟩
  · rintro (⟨hnone, htake⟩ | ⟨v, hsole, htake⟩)
    · exact ⟨_, byName_eq_some_iff.2 (.inl ⟨by rw [hfilter, hnone]; rfl, rfl⟩), htake⟩
    · exact ⟨_, byName_eq_some_iff.2 (.inr ⟨.ofToml v, by rw [hfilter, hsole]; rfl, rfl⟩), htake⟩

/-- An entry that is struck counts as left out, and striking it is all that matters to it. -/
theorem Gives.filter (h : Gives es name take a) (homitted : take .omitted = some b) (gone : String → Bool) :
    Gives (es.filter fun e => !gone e.1) name take (if gone name then b else a) := by
  have hfilter : ((es.filter fun e => !gone e.1).filter fun e => e.1 == name) =
      if gone name then [] else es.filter fun e => e.1 == name := by
    rw [List.filter_filter]
    split
    · rename_i hgone
      refine List.filter_eq_nil_iff.2 fun e _ he => ?_
      obtain ⟨rfl, hkept⟩ : e.1 = name ∧ gone e.1 = false := by simpa using he
      simp [hgone] at hkept
    · rename_i hkept
      refine List.filter_congr fun e _ => ?_
      by_cases he : e.1 = name
      · subst he
        simp [hkept]
      · simp [he]
  rw [gives_iff, hfilter]
  split
  · exact .inl ⟨rfl, homitted⟩
  · exact gives_iff.1 h

/-- Entries are changed without their names. -/
theorem Gives.map (h : Gives es name take a) (g : String → Toml.Value → Toml.Value)
    (homitted : take .omitted = some a → take .omitted = some b)
    (hgiven : ∀ v, (name, v) ∈ es → take (.given (.ofToml v)) = some a →
      take (.given (.ofToml (g name v))) = some b) :
    Gives (es.map fun e => (e.1, g e.1 e.2)) name take b := by
  have hfilter : ((es.map fun e => (e.1, g e.1 e.2)).filter fun e => e.1 == name) =
      (es.filter fun e => e.1 == name).map fun e => (e.1, g e.1 e.2) := by
    rw [List.filter_map]
    rfl
  rw [gives_iff, hfilter]
  obtain ⟨hnone, ha⟩ | ⟨v, hone, ha⟩ := gives_iff.1 h
  · exact .inl ⟨by rw [hnone]; rfl, homitted ha⟩
  · have hmem : (name, v) ∈ es := (List.mem_filter.1 (hone ▸ List.mem_cons_self)).1
    exact .inr ⟨g name v, by rw [hone]; rfl, hgiven v hmem ha⟩

end Field

/-! ## Sections -/

theorem Field.ofDatum_table (kind : Toml.TableKind) (es : Toml.Entries) (names : List String) :
    ofDatum .ignored names (.ofToml (.table kind es)) = names.mapM (byName (Datum.ofTomlEntries es)) := by
  rw [Datum.ofToml, ofDatum, if_pos (all_isSome_ofTomlEntries es)]

open Field (Gives)

variable {kind : Toml.TableKind} {es : Toml.Entries}

namespace ServerOptions

theorem ofDatum_iff {o : ServerOptions} :
    ofDatum .ignored (.ofToml (.table kind es)) = some o ↔
      Gives es "enable_streamable_http" (·.orDefault Datum.flag? false) o.enableStreamableHttp ∧
      Gives es "port" (·.orDefault (Datum.natural? Text.maxU16) ({} : ServerOptions).port) o.port ∧
      Gives es "verbose" (·.orDefault Datum.flag? false) o.verbose := by
  simp only [ofDatum, Field.ofDatum_table, Option.bind_eq_bind, Field.mapM_cons_bind_iff, List.mapM_nil,
    Option.pure_def, Option.bind_some]
  simp only [Option.bind_eq_some_iff, Option.some.injEq, Gives]
  constructor
  · rintro ⟨f, hf, g, hg, e, he, _, hhttp, _, hport, _, hverbose, rfl⟩
    exact ⟨⟨f, hf, hhttp⟩, ⟨g, hg, hport⟩, e, he, hverbose⟩
  · rintro ⟨⟨f, hf, hhttp⟩, ⟨g, hg, hport⟩, e, he, hverbose⟩
    exact ⟨f, hf, g, hg, e, he, _, hhttp, _, hport, _, hverbose, rfl⟩

theorem ofDatum_without {o : ServerOptions} (h : ofDatum .ignored (.ofToml (.table kind es)) = some o)
    (gone : String → Bool) :
    ofDatum .ignored (.ofToml (.table kind (es.filter fun e => !gone e.1))) = some (o.reset gone) := by
  obtain ⟨hhttp, hport, hverbose⟩ := ofDatum_iff.1 h
  exact ofDatum_iff.2 ⟨hhttp.filter rfl gone, hport.filter rfl gone, hverbose.filter rfl gone⟩

theorem reset_default (gone : String → Bool) : reset gone {} = {} := by
  simp [reset]

end ServerOptions

namespace ToolSettings

theorem ofDatum_iff {t : ToolSettings} :
    ofDatum .ignored (.ofToml (.table kind es)) = some t ↔
      Gives es "source" (·.orDefault Datum.text? ({} : ToolSettings).source) t.source ∧
      Gives es "toolchain" (·.orDefault Datum.text? ({} : ToolSettings).toolchain) t.toolchain ∧
      Gives es "search_path" (·.optional Datum.text?) t.searchPath := by
  simp only [ofDatum, Field.ofDatum_table, Option.bind_eq_bind, Field.mapM_cons_bind_iff, List.mapM_nil,
    Option.pure_def, Option.bind_some]
  simp only [Option.bind_eq_some_iff, Option.some.injEq, Gives]
  constructor
  · rintro ⟨f, hf, g, hg, e, he, _, hsource, _, htoolchain, _, hpath, rfl⟩
    exact ⟨⟨f, hf, hsource⟩, ⟨g, hg, htoolchain⟩, e, he, hpath⟩
  · rintro ⟨⟨f, hf, hsource⟩, ⟨g, hg, htoolchain⟩, e, he, hpath⟩
    exact ⟨f, hf, g, hg, e, he, _, hsource, _, htoolchain, _, hpath, rfl⟩

theorem ofDatum_without {t : ToolSettings} (h : ofDatum .ignored (.ofToml (.table kind es)) = some t)
    (gone : String → Bool) :
    ofDatum .ignored (.ofToml (.table kind (es.filter fun e => !gone e.1))) = some (t.reset gone) := by
  obtain ⟨hsource, htoolchain, hpath⟩ := ofDatum_iff.1 h
  exact ofDatum_iff.2 ⟨hsource.filter rfl gone, htoolchain.filter rfl gone, hpath.filter rfl gone⟩

theorem reset_default (gone : String → Bool) : reset gone {} = {} := by
  simp [reset]

end ToolSettings

namespace UpdateSettings

theorem ofDatum_iff {u : UpdateSettings} :
    ofDatum .ignored (.ofToml (.table kind es)) = some u ↔
      Gives es "check_on_activation" (·.orDefault Datum.flag? true) u.checkOnActivation ∧
      Gives es "repository" (·.orDefault Datum.text? ({} : UpdateSettings).repository) u.repository ∧
      Gives es "default_branch" (·.orDefault Datum.text? ({} : UpdateSettings).defaultBranch) u.defaultBranch ∧
      Gives es "api_base" (·.orDefault Datum.text? ({} : UpdateSettings).apiBase) u.apiBase ∧
      Gives es "excluded_tag_prefix" (·.orDefault Datum.text? ({} : UpdateSettings).excludedTagStart)
        u.excludedTagStart ∧
      Gives es "timeout_secs" (·.orDefault (Datum.natural? Text.maxU64) ({} : UpdateSettings).timeoutSeconds)
        u.timeoutSeconds := by
  simp only [ofDatum, Field.ofDatum_table, Option.bind_eq_bind, Field.mapM_cons_bind_iff, List.mapM_nil,
    Option.pure_def, Option.bind_some]
  simp only [Option.bind_eq_some_iff, Option.some.injEq, Gives]
  constructor
  · rintro ⟨f₁, h₁, f₂, h₂, f₃, h₃, f₄, h₄, f₅, h₅, f₆, h₆, _, hcheck, _, hrepository, _, hbranch, _, hbase,
      _, hexcluded, _, htimeout, rfl⟩
    exact ⟨⟨f₁, h₁, hcheck⟩, ⟨f₂, h₂, hrepository⟩, ⟨f₃, h₃, hbranch⟩, ⟨f₄, h₄, hbase⟩, ⟨f₅, h₅, hexcluded⟩,
      f₆, h₆, htimeout⟩
  · rintro ⟨⟨f₁, h₁, hcheck⟩, ⟨f₂, h₂, hrepository⟩, ⟨f₃, h₃, hbranch⟩, ⟨f₄, h₄, hbase⟩, ⟨f₅, h₅, hexcluded⟩,
      f₆, h₆, htimeout⟩
    exact ⟨f₁, h₁, f₂, h₂, f₃, h₃, f₄, h₄, f₅, h₅, f₆, h₆, _, hcheck, _, hrepository, _, hbranch, _, hbase,
      _, hexcluded, _, htimeout, rfl⟩

theorem ofDatum_without {u : UpdateSettings} (h : ofDatum .ignored (.ofToml (.table kind es)) = some u)
    (gone : String → Bool) :
    ofDatum .ignored (.ofToml (.table kind (es.filter fun e => !gone e.1))) = some (u.reset gone) := by
  obtain ⟨hcheck, hrepository, hbranch, hbase, hexcluded, htimeout⟩ := ofDatum_iff.1 h
  exact ofDatum_iff.2 ⟨hcheck.filter rfl gone, hrepository.filter rfl gone, hbranch.filter rfl gone,
    hbase.filter rfl gone, hexcluded.filter rfl gone, htimeout.filter rfl gone⟩

theorem reset_default (gone : String → Bool) : reset gone {} = {} := by
  simp [reset]

end UpdateSettings

namespace LoggingSettings

theorem ofDatum_iff {l : LoggingSettings} :
    ofDatum .ignored (.ofToml (.table kind es)) = some l ↔
      Gives es "level" (·.orDefault Datum.text? ({} : LoggingSettings).level) l.level ∧
      Gives es "file_enabled" (·.orDefault Datum.flag? true) l.fileEnabled ∧
      Gives es "file_path" (·.optional Datum.text?) l.filePath := by
  simp only [ofDatum, Field.ofDatum_table, Option.bind_eq_bind, Field.mapM_cons_bind_iff, List.mapM_nil,
    Option.pure_def, Option.bind_some]
  simp only [Option.bind_eq_some_iff, Option.some.injEq, Gives]
  constructor
  · rintro ⟨f, hf, g, hg, e, he, _, hlevel, _, henabled, _, hpath, rfl⟩
    exact ⟨⟨f, hf, hlevel⟩, ⟨g, hg, henabled⟩, e, he, hpath⟩
  · rintro ⟨⟨f, hf, hlevel⟩, ⟨g, hg, henabled⟩, e, he, hpath⟩
    exact ⟨f, hf, g, hg, e, he, _, hlevel, _, henabled, _, hpath, rfl⟩

theorem ofDatum_without {l : LoggingSettings} (h : ofDatum .ignored (.ofToml (.table kind es)) = some l)
    (gone : String → Bool) :
    ofDatum .ignored (.ofToml (.table kind (es.filter fun e => !gone e.1))) = some (l.reset gone) := by
  obtain ⟨hlevel, henabled, hpath⟩ := ofDatum_iff.1 h
  exact ofDatum_iff.2 ⟨hlevel.filter rfl gone, henabled.filter rfl gone, hpath.filter rfl gone⟩

theorem reset_default (gone : String → Bool) : reset gone {} = {} := by
  simp [reset]

end LoggingSettings

/-! ## Documents -/

/-- The document has no such section, or one with nothing in it. -/
def Toml.Entries.IsBlank (es : Toml.Entries) (name : String) : Prop :=
  name ∉ es.map Prod.fst ∨ ∃ kind, (name, .table kind []) ∈ es

namespace Field.Gives

variable {α : Type} {name : String} {read : Datum → Option α} {default a : α}

/-- What is left of a section, if the readers of sections bear the loss of keys. -/
theorem apply (h : Gives es name (·.orDefault read default) a) (o : Omission)
    {reset : (String → Bool) → α → α} (hdefault : ∀ gone, reset gone default = default)
    (hwithout : ∀ {kind fs b}, read (.ofToml (.table kind fs)) = some b → ∀ gone : String → Bool,
      read (.ofToml (.table kind (fs.filter fun e => !gone e.1))) = some (reset gone b))
    (htable : ∀ v, (name, v) ∈ es → ∃ kind fs, v = .table kind fs) :
    Gives (o.apply es) name (·.orDefault read default)
      (if o.sections name then default else reset (o.keys name) a) := by
  have hkeys : Gives (es.map fun e => (e.1, e.2.without (o.keys e.1))) name (·.orDefault read default)
      (reset (o.keys name) a) := by
    refine h.map (fun key v => v.without (o.keys key)) (fun ha => ?_) fun v hv ha => ?_
    · obtain rfl := Option.some.inj ha
      exact congrArg some (hdefault _).symm
    · obtain ⟨kind, fs, rfl⟩ := htable v hv
      exact hwithout ha _
  exact hkeys.filter rfl o.sections

theorem of_isBlank (h : Gives es name (·.orDefault read default) a) (hblank : es.IsBlank name)
    (hempty : ∀ kind, read (.ofToml (.table kind [])) = some default) : a = default := by
  obtain ⟨-, ha⟩ | ⟨v, hone, ha⟩ := gives_iff.1 h
  · exact (Option.some.inj ha).symm
  · have hmem : (name, v) ∈ es := (List.mem_filter.1 (hone ▸ List.mem_cons_self)).1
    obtain habsent | ⟨kind, hkind⟩ := hblank
    · exact absurd (List.mem_map_of_mem hmem) habsent
    · have hsole : (name, .table kind []) ∈ [(name, v)] := hone ▸ List.mem_filter.2 ⟨hkind, by simp⟩
      obtain rfl : .table kind [] = v := by simpa using hsole
      exact Option.some.inj (ha.symm.trans (hempty kind))

end Field.Gives

namespace Config

theorem ofToml?_iff {c : Config} :
    ofToml? es = some c ↔
      Gives es "server" (·.orDefault (ServerOptions.ofDatum .ignored) {}) c.server ∧
      Gives es "tool" (·.orDefault (ToolSettings.ofDatum .ignored) {}) c.tool ∧
      Gives es "update" (·.orDefault (UpdateSettings.ofDatum .ignored) {}) c.update ∧
      Gives es "logging" (·.orDefault (LoggingSettings.ofDatum .ignored) {}) c.logging := by
  simp only [ofToml?, ofDatum, Field.ofDatum, if_pos (Field.all_isSome_ofTomlEntries es), Option.bind_eq_bind,
    Field.mapM_cons_bind_iff, List.mapM_nil, Option.pure_def, Option.bind_some]
  simp only [Option.bind_eq_some_iff, Option.some.injEq, Gives]
  constructor
  · rintro ⟨f₁, h₁, f₂, h₂, f₃, h₃, f₄, h₄, _, hserver, _, htool, _, hupdate, _, hlogging, rfl⟩
    exact ⟨⟨f₁, h₁, hserver⟩, ⟨f₂, h₂, htool⟩, ⟨f₃, h₃, hupdate⟩, f₄, h₄, hlogging⟩
  · rintro ⟨⟨f₁, h₁, hserver⟩, ⟨f₂, h₂, htool⟩, ⟨f₃, h₃, hupdate⟩, f₄, h₄, hlogging⟩
    exact ⟨f₁, h₁, f₂, h₂, f₃, h₃, f₄, h₄, _, hserver, _, htool, _, hupdate, _, hlogging, rfl⟩

/-- **What a document leaves out takes its default, and nothing else changes.** Whichever keys and sections are
struck from a document that can be read, the rest reads as its settings with the defaults in their place. And a
section that is missing, one that is empty and a missing file give the same settings. -/
theorem omitted_settings_default {c : Config}
    (htables : ∀ e ∈ es, e.1 ∈ ["server", "tool", "update", "logging"] → ∃ kind fs, e.2 = .table kind fs)
    (h : ofToml? es = some c) :
    (∀ o : Omission, ofToml? (o.apply es) = some (c.reset o)) ∧
      ∃ missing : Config, (∀ (fs : Files) (path : String), fs.exists? path = false → load fs path = .ok missing) ∧
        (es.IsBlank "server" → c.server = missing.server) ∧
        (es.IsBlank "tool" → c.tool = missing.tool) ∧
        (es.IsBlank "update" → c.update = missing.update) ∧
        (es.IsBlank "logging" → c.logging = missing.logging) := by
  obtain ⟨hserver, htool, hupdate, hlogging⟩ := ofToml?_iff.1 h
  constructor
  · exact fun o => ofToml?_iff.2
      ⟨hserver.apply o ServerOptions.reset_default ServerOptions.ofDatum_without
          fun v hv => htables ("server", v) hv (by simp),
        htool.apply o ToolSettings.reset_default ToolSettings.ofDatum_without
          fun v hv => htables ("tool", v) hv (by simp),
        hupdate.apply o UpdateSettings.reset_default UpdateSettings.ofDatum_without
          fun v hv => htables ("update", v) hv (by simp),
        hlogging.apply o LoggingSettings.reset_default LoggingSettings.ofDatum_without
          fun v hv => htables ("logging", v) hv (by simp)⟩
  · exact ⟨{}, fun fs path => load_of_missing, fun hb => hserver.of_isBlank hb fun _ => rfl,
      fun hb => htool.of_isBlank hb fun _ => rfl, fun hb => hupdate.of_isBlank hb fun _ => rfl,
      fun hb => hlogging.of_isBlank hb fun _ => rfl⟩

/-- The port and all of the update settings are struck. -/
theorem port_and_updates_struck :
    let o : Omission := { sections := (· == "update"), keys := fun name key => name == "server" && key == "port" }
    ∃ es, Toml.parse "[server]\nport = 9\nverbose = true\n[update]\ntimeout_secs = 7\n[logging]\n".toList = some es ∧
      ofToml? es = some { server := { port := 9, verbose := true }, update := { timeoutSeconds := 7 } } ∧
      ofToml? (o.apply es) = some { server := { verbose := true } } := by
  intro o
  have hread : ofToml? [("server", .table .header [("port", .integer 9), ("verbose", .boolean true)]),
      ("update", .table .header [("timeout_secs", .integer 7)]), ("logging", .table .header [])] =
      some { server := { port := 9, verbose := true }, update := { timeoutSeconds := 7 } } := by decide +kernel
  exact ⟨_, by rfl, hread, (omitted_settings_default (by simp) hread).1 o⟩

end Config

end Steward
