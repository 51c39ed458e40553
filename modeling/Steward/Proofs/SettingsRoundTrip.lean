import Steward.Proofs.Encoding
import Steward.Proofs.SettingsReaders
import Steward.Proofs.TomlSections

/-!
# Saved settings are loaded again

Whatever the settings hold, the text that is written for them reads as the same settings. So loading
from the path they were saved to gives them back, or names what is wrong with them. Saving fails only
where the files do not permit it.
-/

set_option autoImplicit false

namespace Steward

/-! ## Sections with known keys -/

theorem Toml.Plain.fits_natural {n : Nat} (h : n ≤ Text.maxU64) : (Plain.natural n).Fits := by
  have hmax : (Text.maxU64 : Int) ≤ Scalar.integerMax := by decide
  show (n : Int) ≤ Scalar.integerMax
  omega

/-- A section whose lines are some of the fields `keys`, in their order. -/
theorem Toml.IsReadable.of_sublist {name : String} {keys : List String}
    {lines : List (String × Plain)} (hlines : (lines.map Prod.fst).Sublist keys)
    (hname : State.isBareKey name.toList = true)
    (hbare : ∀ key ∈ keys, State.isBareKey key.toList = true) (hnodup : keys.Nodup)
    (hfits : ∀ l ∈ lines, l.2.Fits) : IsReadable name lines where
  name_bare := hname
  keys_bare l hl := hbare l.1 (hlines.subset (List.mem_map_of_mem hl))
  keys_distinct := hnodup.sublist hlines
  fits := hfits

/-- What a reader finds under a key of a section. -/
def Field.ofPlain? : Option Toml.Plain → Field
  | some v => .given (.ofToml v.value)
  | none => .omitted

theorem Toml.get?_lines (lines : List (String × Plain)) (key : String) :
    Entries.get? key (lines.map fun l => (l.1, l.2.value)) = (lines.lookup key).map Plain.value := by
  induction lines with
  | nil => rfl
  | cons l lines ih =>
    rw [Entries.get?] at ih ⊢
    rw [List.map_cons, List.lookup_cons, List.lookup_cons]
    split <;> simp_all

theorem Field.ofDatum_section {name : String} {lines : List (String × Toml.Plain)}
    (h : Toml.IsReadable name lines) (surplus : Surplus) (names : List String) :
    Field.ofDatum surplus names (.ofToml (Toml.sectionEntry name lines).2) =
      some (names.map fun key => Field.ofPlain? (lines.lookup key)) := by
  have hdistinct : Toml.Distinct (lines.map fun l => (l.1, l.2.value)) := by
    simpa [Toml.Distinct, Function.comp_def] using h.keys_distinct
  have hfield (key : String) :
      Field.byName (Datum.ofTomlEntries (lines.map fun l => (l.1, l.2.value))) key =
        some (Field.ofPlain? (lines.lookup key)) := by
    rw [Field.byName_ofTomlEntries hdistinct, Toml.get?_lines]
    cases lines.lookup key <;> rfl
  rw [Toml.sectionEntry, Datum.ofToml, Field.ofDatum, if_pos (Field.all_isSome_ofTomlEntries _)]
  rw [funext hfield]
  exact List.mapM_pure

@[simp] theorem Field.orDefault_flag (b default : Bool) :
    (Field.ofPlain? (some (.flag b))).orDefault Datum.flag? default = some b := rfl

@[simp] theorem Field.orDefault_text (s default : String) :
    (Field.ofPlain? (some (.text s))).orDefault Datum.text? default = some s := rfl

theorem Field.orDefault_natural {n limit : Nat} (h : n ≤ limit) (default : Nat) :
    (Field.ofPlain? (some (.natural n))).orDefault (Datum.natural? limit) default = some n := by
  show (if n ≤ limit then some n else none) = some n
  rw [if_pos h]

theorem Field.optional_text (key : String) (s : Option String) :
    (Field.ofPlain? ((optionalLine key s).lookup key)).optional Datum.text? = some s := by
  cases s with
  | none => rfl
  | some t =>
    simp [optionalLine, Field.ofPlain?, Toml.Plain.value, Datum.ofToml, Field.optional, Datum.text?]

/-! ## The sections of the settings -/

theorem optionalLine_sublist (key : String) (s : Option String) :
    ((optionalLine key s).map Prod.fst).Sublist [key] := by
  cases s with
  | none => exact List.nil_sublist _
  | some t => exact List.Sublist.refl _

theorem fits_optionalLine {key : String} {s : Option String} :
    ∀ l ∈ optionalLine key s, l.2.Fits := by
  cases s with
  | none => simp [optionalLine]
  | some t => simp [optionalLine, Toml.Plain.Fits]

namespace ServerOptions

theorem isReadable_lines {o : ServerOptions} (h : o.port ≤ Text.maxU16) :
    Toml.IsReadable "server" o.lines := by
  have hkeys : (o.lines.map Prod.fst).Sublist ["enable_streamable_http", "port", "verbose"] :=
    List.Sublist.refl _
  have hport := Toml.Plain.fits_natural (Nat.le_trans h (by decide))
  refine .of_sublist hkeys (by decide) (by decide) (by decide) ?_
  simp only [lines, List.forall_mem_cons]
  exact ⟨trivial, hport, trivial, by simp⟩

theorem ofDatum_section {o : ServerOptions} (h : o.port ≤ Text.maxU16) :
    ofDatum .ignored (.ofToml (Toml.sectionEntry "server" o.lines).2) = some o := by
  rw [ofDatum, Field.ofDatum_section (isReadable_lines h)]
  simp [lines, List.lookup_cons, Field.orDefault_natural h]

end ServerOptions

namespace ToolSettings

theorem isReadable_lines (t : ToolSettings) : Toml.IsReadable "tool" t.lines := by
  have hkeys : (t.lines.map Prod.fst).Sublist (["source", "toolchain"] ++ ["search_path"]) := by
    rw [lines, List.map_append]
    exact (List.Sublist.refl _).append (optionalLine_sublist "search_path" t.searchPath)
  refine .of_sublist hkeys (by decide) (by decide) (by decide) ?_
  simp only [lines, List.cons_append, List.nil_append, List.forall_mem_cons]
  exact ⟨trivial, trivial, fits_optionalLine⟩

theorem ofDatum_section (t : ToolSettings) :
    ofDatum .ignored (.ofToml (Toml.sectionEntry "tool" t.lines).2) = some t := by
  rw [ofDatum, Field.ofDatum_section (isReadable_lines t)]
  simp [lines, List.lookup_cons, Field.optional_text]

end ToolSettings

namespace UpdateSettings

theorem isReadable_lines {u : UpdateSettings} (h : u.timeoutSeconds ≤ Text.maxU64) :
    Toml.IsReadable "update" u.lines := by
  have hkeys : (u.lines.map Prod.fst).Sublist ["check_on_activation", "repository",
      "default_branch", "api_base", "excluded_tag_prefix", "timeout_secs"] := List.Sublist.refl _
  refine .of_sublist hkeys (by decide) (by decide) (by decide) ?_
  simp only [lines, List.forall_mem_cons]
  exact ⟨trivial, trivial, trivial, trivial, trivial, Toml.Plain.fits_natural h, by simp⟩

theorem ofDatum_section {u : UpdateSettings} (h : u.timeoutSeconds ≤ Text.maxU64) :
    ofDatum .ignored (.ofToml (Toml.sectionEntry "update" u.lines).2) = some u := by
  rw [ofDatum, Field.ofDatum_section (isReadable_lines h)]
  simp [lines, List.lookup_cons, Field.orDefault_natural h]

end UpdateSettings

namespace LoggingSettings

theorem isReadable_lines (l : LoggingSettings) : Toml.IsReadable "logging" l.lines := by
  have hkeys : (l.lines.map Prod.fst).Sublist (["level", "file_enabled"] ++ ["file_path"]) := by
    rw [lines, List.map_append]
    exact (List.Sublist.refl _).append (optionalLine_sublist "file_path" l.filePath)
  refine .of_sublist hkeys (by decide) (by decide) (by decide) ?_
  simp only [lines, List.cons_append, List.nil_append, List.forall_mem_cons]
  exact ⟨trivial, trivial, fits_optionalLine⟩

theorem ofDatum_section (l : LoggingSettings) :
    ofDatum .ignored (.ofToml (Toml.sectionEntry "logging" l.lines).2) = some l := by
  rw [ofDatum, Field.ofDatum_section (isReadable_lines l)]
  simp [lines, List.lookup_cons, Field.optional_text]

end LoggingSettings

/-! ## Writing a file -/

/-- The files with the directory that a path is in. -/
def Files.withParent (fs : Files) (path : String) : Except OsError Files :=
  match Path.parent? path with
  | some parent => fs.makeDirectories parent
  | none => .ok fs

/-- Either a path cannot be written to, or it leads to a file whose bytes are replaced. -/
theorem Files.write_cases (fs : Files) (path : String) :
    (∃ e : OsError, ∀ bytes, fs.write path bytes = .error e) ∨
      ∃ fs₁ place old, Files.Holds fs₁ path place old ∧
        ∀ bytes, fs.write path bytes = .ok (fs₁.change place fun _ => bytes) := by
  cases hopen : fs.openForWriting path with
  | error e =>
    refine .inl ⟨e, fun bytes => ?_⟩
    rw [write, hopen]
    rfl
  | ok opened =>
    obtain ⟨place, fs₁⟩ := opened
    have hwrite (bytes : Text.Utf8.Bytes) :
        fs.write path bytes = .ok (fs₁.change place fun _ => bytes) := by
      rw [write, hopen]
      rfl
    rcases holds_openForWriting hopen with ⟨old, hholds, rfl⟩ | ⟨-, hholds⟩
    · exact .inr ⟨_, place, old, hholds, hwrite⟩
    · exact .inr ⟨_, place, [], hholds, hwrite⟩

/-! ## The settings -/

namespace Config

/-- The text of the settings reads as the same settings. -/
theorem parse_render {c : Config} (hport : c.server.port ≤ Text.maxU16)
    (htimeout : c.update.timeoutSeconds ≤ Text.maxU64) : parse c.render = some c := by
  have hreadable : ∀ s ∈ [("server", c.server.lines), ("tool", c.tool.lines),
      ("update", c.update.lines), ("logging", c.logging.lines)], Toml.IsReadable s.1 s.2 := by
    simp only [List.forall_mem_cons]
    exact ⟨ServerOptions.isReadable_lines hport, ToolSettings.isReadable_lines c.tool,
      UpdateSettings.isReadable_lines htimeout, LoggingSettings.isReadable_lines c.logging, by simp⟩
  have hfields : Field.ofDatum .ignored ["server", "tool", "update", "logging"]
      (.members (Datum.ofTomlEntries [Toml.sectionEntry "server" c.server.lines,
        Toml.sectionEntry "tool" c.tool.lines, Toml.sectionEntry "update" c.update.lines,
        Toml.sectionEntry "logging" c.logging.lines])) =
      some [.given (.ofToml (Toml.sectionEntry "server" c.server.lines).2),
        .given (.ofToml (Toml.sectionEntry "tool" c.tool.lines).2),
        .given (.ofToml (Toml.sectionEntry "update" c.update.lines).2),
        .given (.ofToml (Toml.sectionEntry "logging" c.logging.lines).2)] := by
    simp [Toml.sectionEntry, Datum.ofTomlEntries, Field.ofDatum, Field.byName]
  rw [parse, render, Toml.parse_renderSections hreadable (by simp)]
  simp only [List.map_cons, List.map_nil, Option.bind_some, ofToml?, ofDatum, hfields]
  simp [Field.orDefault, ServerOptions.ofDatum_section hport, ToolSettings.ofDatum_section,
    UpdateSettings.ofDatum_section htimeout, LoggingSettings.ofDatum_section]

theorem save_eq (fs : Files) (path : String) (c : Config) :
    save fs path c = ((fs.withParent path).bind fun made =>
      made.write path (Text.Utf8.encode c.render)).mapError (Failure.io ·.message) := by
  unfold Files.withParent save
  cases Path.parent? path with
  | none =>
    simp only [bind, pure, Except.bind, Except.pure]
    cases fs.write path (Text.Utf8.encode c.render) <;> rfl
  | some parent =>
    simp only [bind, Except.bind]
    cases fs.makeDirectories parent with
    | error e => rfl
    | ok made =>
      dsimp only
      cases made.write path (Text.Utf8.encode c.render) <;> rfl

/-- Either the files permit no settings to be saved, or the path leads to a file whose bytes are
replaced. -/
theorem save_cases (fs : Files) (path : String) :
    (∃ e : OsError, ∀ c, save fs path c = .error (.io e.message)) ∨
      ∃ fs₁ place old, Files.Holds fs₁ path place old ∧
        ∀ c, save fs path c = .ok (fs₁.change place fun _ => Text.Utf8.encode c.render) := by
  simp only [save_eq]
  cases fs.withParent path with
  | error e => exact .inl ⟨e, fun c => rfl⟩
  | ok made =>
    obtain ⟨e, he⟩ | ⟨fs₁, place, old, hholds, hwrite⟩ := Files.write_cases made path
    · refine .inl ⟨e, fun c => ?_⟩
      rw [Except.bind, he]
      rfl
    · refine .inr ⟨fs₁, place, old, hholds, fun c => ?_⟩
      rw [Except.bind, hwrite]
      rfl

theorem readText_save {fs fs' : Files} {path : String} {c : Config} (h : save fs path c = .ok fs') :
    fs'.readText path = .ok c.render := by
  obtain ⟨e, he⟩ | ⟨fs₁, place, bytes, hholds, hsave⟩ := save_cases fs path
  · rw [he] at h
    exact nomatch h
  · rw [hsave, Except.ok.injEq] at h
    subst h
    have hread := (hholds.change fun _ => Text.Utf8.encode c.render).read
    simp only [Files.readText, hread, Text.Utf8.decode_encode]

/-- Settings that were saved are loaded again, unless there is a fault in them, which is then named.
Saving them fails only where no settings could be saved. -/
theorem load_save (c : Config) (hport : c.server.port ≤ Text.maxU16)
    (htimeout : c.update.timeoutSeconds ≤ Text.maxU64) :
    parse c.render = some c ∧
      ∀ (fs : Files) (path : String),
        (∀ f, save fs path c = .error f →
          (∃ e : OsError, f = .io e.message) ∧ ∀ c', save fs path c' = .error f) ∧
        ∀ fs', save fs path c = .ok fs' →
          fs'.readText path = .ok c.render ∧
          (c.check = .ok () → load fs' path = .ok c) ∧
          ∀ fault, c.check = .error fault → load fs' path = .error fault.failure := by
  have hparse := parse_render hport htimeout
  refine ⟨hparse, fun fs path => ⟨fun f hf => ?_, fun fs' hsave => ?_⟩⟩
  · obtain ⟨e, he⟩ | ⟨fs₁, place, bytes, -, hsave⟩ := save_cases fs path
    · rw [he, Except.error.injEq] at hf
      subst hf
      exact ⟨⟨e, rfl⟩, he⟩
    · rw [hsave] at hf
      exact nomatch hf
  · have htext := readText_save hsave
    have hload := load_of_readText htext
    rw [hparse] at hload
    refine ⟨htext, fun hcheck => ?_, fun fault hcheck => ?_⟩
    · rw [hload]
      simp only [hcheck]
    · rw [hload]
      simp only [hcheck]

/-- Texts that take each of the four forms, the largest numbers, and one option given and one not. -/
theorem load_save_every_form :
    let c : Config := {
      server := { port := 65535 }
      tool := { source := "C:\\m@\"1\"", toolchain := "'\x01'", searchPath := some "'''\n\"\"\"" }
      update := { timeoutSeconds := Text.maxU64, repository := "'\n\\" } }
    ∃ fs, save {} "d/config.toml" c = .ok fs ∧ load fs "d/config.toml" = .ok c := by
  intro c
  have hsaved : (save {} "d/config.toml" c).isOk = true := by decide +kernel
  have hcheck : c.check = .ok () := by decide +kernel
  cases hsave : save {} "d/config.toml" c with
  | error f =>
    rw [hsave] at hsaved
    exact nomatch hsaved
  | ok fs =>
    have hfiles := (load_save c (by decide) (by decide)).2 {} "d/config.toml"
    exact ⟨fs, rfl, (hfiles.2 fs hsave).2.1 hcheck⟩

end Config

end Steward
