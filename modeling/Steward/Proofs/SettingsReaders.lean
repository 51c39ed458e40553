import Mathlib.Data.List.Forall2
import Steward.Config.File
import Steward.Proofs.FileTree
import Steward.Proofs.TomlKeys
import Steward.Proofs.Wiring

/-!
# Two readers of one file

The settings file is read as a whole and, at each start, for the server options alone. The second reader
never fails. It comes to what the first one finds, whenever that one finds anything, and it depends on
nothing but the value of the key `server`, whatever form that value is written in.
-/

set_option autoImplicit false

namespace Steward

namespace Toml

/-! ## Values that say the same -/

/-- Values that say the same, in whatever form tables and arrays are written and in whatever order
entries stand. Floats are not told apart, nor are moments: no setting is one. -/
inductive Same : Value → Value → Prop
  | string (s : String) : Same (.string s) (.string s)
  | integer (n : Int) : Same (.integer n) (.integer n)
  | float (word word' : String) : Same (.float word) (.float word')
  | boolean (b : Bool) : Same (.boolean b) (.boolean b)
  | moment (word word' : String) : Same (.moment word) (.moment word')
  | array {ofTables ofTables' : Bool} {items items' : List Value} :
      List.Forall₂ Same items items' → Same (.array ofTables items) (.array ofTables' items')
  | table {kind kind' : TableKind} {es fs es' : Entries} :
      es.map Prod.fst = fs.map Prod.fst → List.Forall₂ Same (es.map Prod.snd) (fs.map Prod.snd) →
      fs.Perm es' → Same (.table kind es) (.table kind' es')

end Toml

/-! ## What a reader of the server options can tell -/

namespace Datum

/-- No field of the server options tells the two apart. -/
def Alike (d d' : Datum) : Prop :=
  d.flag? = d'.flag? ∧ ∀ limit, d.natural? limit = d'.natural? limit

theorem alike_of_same {v w : Toml.Value} (h : Toml.Same v w) : Alike (ofToml v) (ofToml w) := by
  cases h with
  | _ => exact ⟨rfl, fun _ => rfl⟩

theorem ofTomlEntries_eq_map (es : Toml.Entries) :
    ofTomlEntries es = es.map fun e => (some e.1, ofToml e.2) := by
  induction es with
  | nil => rfl
  | cons e es ih =>
    obtain ⟨k, v⟩ := e
    rw [ofTomlEntries, ih]
    rfl

/-- Members of the same names, in the same order, that are alike. -/
abbrev AlikeMembers (ms ms' : List (Option String × Datum)) : Prop :=
  List.Forall₂ (fun m m' => m.1 = m'.1 ∧ Alike m.2 m'.2) ms ms'

theorem alikeMembers_of_same : ∀ {es fs : Toml.Entries}, es.map Prod.fst = fs.map Prod.fst →
    List.Forall₂ Toml.Same (es.map Prod.snd) (fs.map Prod.snd) →
    AlikeMembers (ofTomlEntries es) (ofTomlEntries fs) := by
  intro es
  induction es with
  | nil =>
    intro fs hk _
    cases fs with
    | nil => exact .nil
    | cons f fs => simp at hk
  | cons e es ih =>
    intro fs hk hv
    cases fs with
    | nil => simp at hk
    | cons f fs =>
      rw [List.map_cons, List.map_cons, List.cons.injEq] at hk
      rw [List.map_cons, List.map_cons, List.forall₂_cons] at hv
      refine .cons ⟨?_, alike_of_same hv.1⟩ (ih hk.2 hv.2)
      exact congrArg some hk.1

end Datum

namespace Field

open Datum (AlikeMembers)

inductive Alike : Field → Field → Prop
  | given {d d' : Datum} : Datum.Alike d d' → Alike (.given d) (.given d')
  | omitted : Alike .omitted .omitted
  | cut : Alike .cut .cut

theorem Alike.flag {f f' : Field} (h : Alike f f') (default : Bool) :
    f.orDefault Datum.flag? default = f'.orDefault Datum.flag? default := by
  cases h with
  | given hd => exact hd.1
  | omitted | cut => rfl

theorem Alike.natural {f f' : Field} (h : Alike f f') (limit default : Nat) :
    f.orDefault (Datum.natural? limit) default = f'.orDefault (Datum.natural? limit) default := by
  cases h with
  | given hd => exact hd.2 limit
  | omitted | cut => rfl

/-- What the members of one name say. -/
def sole : List (Option String × Datum) → Option Field
  | [] => some .omitted
  | [m] => some (.given m.2)
  | _ => none

theorem byName_eq_sole (ms : List (Option String × Datum)) (name : String) :
    byName ms name = sole (ms.filter fun m => m.1 == some name) := rfl

theorem byName_eq_some_iff {ms : List (Option String × Datum)} {name : String} {f : Field} :
    byName ms name = some f ↔
      ((ms.filter fun m => m.1 == some name) = [] ∧ f = .omitted) ∨
        ∃ d, (ms.filter fun m => m.1 == some name) = [(some name, d)] ∧ f = .given d := by
  have hname : ∀ m ∈ ms.filter (fun m => m.1 == some name), m.1 = some name := fun m hm => by
    simpa using (List.mem_filter.1 hm).2
  rw [byName_eq_sole]
  generalize ms.filter (fun m => m.1 == some name) = l at hname ⊢
  rcases l with _ | ⟨⟨k, d⟩, _ | ⟨m, rest⟩⟩
  · simp [sole, eq_comm]
  · obtain rfl : k = some name := hname (k, d) List.mem_cons_self
    simp [sole, eq_comm]
  · simp [sole]

theorem sole_perm {ms ms' : List (Option String × Datum)} (h : ms.Perm ms') : sole ms = sole ms' := by
  match ms, ms', h with
  | [], ms', h => rw [← h.nil_eq]
  | [m], ms', h => rw [List.singleton_perm.1 h]
  | m :: m₂ :: rest, [], h => simp at h
  | m :: m₂ :: rest, [m'], h => simp at h
  | m :: m₂ :: rest, m' :: m₂' :: rest', _ => rfl

theorem sole_alike {ms ms' : List (Option String × Datum)} (h : AlikeMembers ms ms') :
    Option.Rel Alike (sole ms) (sole ms') := by
  cases h with
  | nil => exact .some .omitted
  | cons hm hrest =>
    cases hrest with
    | nil => exact .some (.given hm.2)
    | cons => exact .none

theorem byName_perm {ms ms' : List (Option String × Datum)} (h : ms.Perm ms') (name : String) :
    byName ms name = byName ms' name := by
  rw [byName_eq_sole, byName_eq_sole]
  exact sole_perm (h.filter _)

theorem byName_alike {ms ms' : List (Option String × Datum)} (h : AlikeMembers ms ms')
    (name : String) : Option.Rel Alike (byName ms name) (byName ms' name) := by
  rw [byName_eq_sole, byName_eq_sole]
  apply sole_alike
  refine List.rel_filter ?_ h
  rintro m m' ⟨hk, -⟩
  simp [hk]

theorem mapM_byName_alike {ms ms' : List (Option String × Datum)}
    (h : ∀ name, Option.Rel Alike (byName ms name) (byName ms' name)) (names : List String) :
    Option.Rel (List.Forall₂ Alike) (names.mapM (byName ms)) (names.mapM (byName ms')) := by
  induction names with
  | nil => exact .some .nil
  | cons name names ih =>
    rw [List.mapM_cons, List.mapM_cons]
    have hname := h name
    generalize byName ms name = f, byName ms' name = f' at hname
    generalize names.mapM (byName ms) = fs, names.mapM (byName ms') = fs' at ih
    cases hname with
    | none => exact .none
    | some hf =>
      cases ih with
      | none => exact .none
      | some hfs => exact .some (.cons hf hfs)

/-- Fields are found one after the other and then read. -/
theorem mapM_cons_bind_iff {α : Type} {find : String → Option Field} {name : String} {names : List String}
    {read : List Field → Option α} {a : α} :
    ((name :: names).mapM find).bind read = some a ↔
      ∃ f, find name = some f ∧ (names.mapM find).bind (fun fs => read (f :: fs)) = some a := by
  simp only [List.mapM_cons, Option.bind_eq_bind, Option.bind_assoc, Option.bind_eq_some_iff, Option.pure_def,
    Option.bind_some]

theorem byPosition_alike {items items' : List Toml.Value}
    (h : List.Forall₂ Toml.Same items items') (names : List String) :
    List.Forall₂ Alike (byPosition names (Datum.ofTomlItems items))
      (byPosition names (Datum.ofTomlItems items')) := by
  induction names generalizing items items' with
  | nil => exact .nil
  | cons name names ih =>
    cases h with
    | nil => exact .cons .cut (ih .nil)
    | cons hv hvs => exact .cons (.given (Datum.alike_of_same hv)) (ih hvs)

theorem all_isSome_ofTomlEntries (es : Toml.Entries) :
    (Datum.ofTomlEntries es).all (·.1.isSome) = true := by
  simp [Datum.ofTomlEntries_eq_map]

/-- Fields of values that say the same are alike. -/
theorem ofDatum_alike {v w : Toml.Value} (h : Toml.Same v w) (names : List String) :
    Option.Rel (List.Forall₂ Alike) (ofDatum .ignored names (.ofToml v))
      (ofDatum .ignored names (.ofToml w)) := by
  cases h with
  | string | integer | float | boolean => exact .none
  | moment word word' =>
    refine mapM_byName_alike (byName_alike ?_) names
    exact .cons ⟨rfl, rfl, fun _ => rfl⟩ .nil
  | array hitems => exact .some (byPosition_alike hitems names)
  | @table _ _ es fs es' hk hv hperm =>
    have hmembers (name : String) : Option.Rel Alike (byName (Datum.ofTomlEntries es) name)
        (byName (Datum.ofTomlEntries es') name) := by
      have hp : (Datum.ofTomlEntries fs).Perm (Datum.ofTomlEntries es') := by
        rw [Datum.ofTomlEntries_eq_map, Datum.ofTomlEntries_eq_map]
        exact hperm.map _
      rw [← byName_perm hp]
      exact byName_alike (Datum.alikeMembers_of_same hk hv) name
    rw [Datum.ofToml, Datum.ofToml, ofDatum, ofDatum, if_pos (all_isSome_ofTomlEntries es),
      if_pos (all_isSome_ofTomlEntries es')]
    exact mapM_byName_alike hmembers names

end Field

/-! ## The server options in a document -/

theorem Field.byName_ofTomlEntries {es : Toml.Entries} (h : Toml.Distinct es) (name : String) :
    Field.byName (Datum.ofTomlEntries es) name =
      some (((es.get? name).map fun v => Field.given (.ofToml v)).getD .omitted) := by
  have hfilter : (Datum.ofTomlEntries es).filter (fun m => m.1 == some name) =
      ((es.get? name).map fun v => (some name, Datum.ofToml v)).toList := by
    induction es with
    | nil => rfl
    | cons e es ih =>
      obtain ⟨k, v⟩ := e
      obtain ⟨hk, hes⟩ := List.nodup_cons.1 h
      rw [Datum.ofTomlEntries]
      by_cases hname : k = name
      · subst hname
        -- the rest has no entry of that name
        have hrest : Toml.Entries.get? k es = none := Toml.Entries.get?_of_not_mem hk
        rw [List.filter_cons_of_pos (by simp), ih hes, hrest]
        simp [Toml.Entries.get?]
      · have hne : (name == k) = false := by simpa using fun h => hname h.symm
        rw [List.filter_cons_of_neg (by simpa using hname), ih hes]
        simp [Toml.Entries.get?, List.lookup_cons, hne]
  rw [Field.byName_eq_sole, hfilter]
  cases es.get? name <;> rfl

theorem Files.exists_of_readText {fs : Files} {path : String} {cs : List Char}
    (h : fs.readText path = .ok cs) : fs.exists? path = true := by
  unfold Files.readText at h
  split at h
  · exact nomatch h
  · rename_i bytes hread
    obtain ⟨place, hholds⟩ := Files.holds_of_read hread
    exact hholds.exists

namespace Config

theorem load_of_missing {fs : Files} {path : String} (h : fs.exists? path = false) :
    load fs path = .ok {} := by
  simp [load, h, pure, Except.pure]

theorem load_of_readText {fs : Files} {path : String} {cs : List Char}
    (h : fs.readText path = .ok cs) :
    load fs path = match parse cs with
      | none => .error .unreadableConfig
      | some c =>
        match c.check with
        | .ok () => .ok c
        | .error fault => .error fault.failure := by
  simp only [load, Files.exists_of_readText h, h, bind, Except.bind]
  rfl

end Config

namespace ServerOptions

theorem ofDatum_same {v w : Toml.Value} (h : Toml.Same v w) :
    ofDatum .ignored (.ofToml v) = ofDatum .ignored (.ofToml w) := by
  unfold ofDatum
  have hfields := Field.ofDatum_alike h ["enable_streamable_http", "port", "verbose"]
  generalize Field.ofDatum .ignored ["enable_streamable_http", "port", "verbose"] (.ofToml v) = fs,
    Field.ofDatum .ignored ["enable_streamable_http", "port", "verbose"] (.ofToml w) = fs' at hfields
  cases hfields with
  | none => rfl
  | some hfs =>
    match hfs with
    | .nil => rfl
    | .cons _ .nil => rfl
    | .cons _ (.cons _ .nil) => rfl
    | .cons hhttp (.cons hport (.cons hverbose .nil)) =>
      simp only [bind, Option.bind, hhttp.flag, hport.natural, hverbose.flag]
    | .cons _ (.cons _ (.cons _ (.cons _ _))) => rfl

theorem ofToml?_eq_byName (es : Toml.Entries) :
    ofToml? es = (Field.byName (Datum.ofTomlEntries es) "server").bind
      (·.orDefault (ofDatum .ignored) {}) := by
  simp only [ofToml?, Field.ofDatum, if_pos (Field.all_isSome_ofTomlEntries es), List.mapM_cons,
    List.mapM_nil]
  cases Field.byName (Datum.ofTomlEntries es) "server" <;> rfl

theorem ofToml?_eq_get? {es : Toml.Entries} (h : Toml.Distinct es) :
    ofToml? es = ((es.get? "server").map fun v => ofDatum .ignored (.ofToml v)).getD (some {}) := by
  rw [ofToml?_eq_byName, Field.byName_ofTomlEntries h]
  cases es.get? "server" <;> rfl

/-- Where all settings can be read, so can the server options. -/
theorem ofToml?_of_config {es : Toml.Entries} {c : Config} (h : Config.ofToml? es = some c) :
    ofToml? es = some c.server := by
  rw [ofToml?_eq_byName]
  simp only [Config.ofToml?, Config.ofDatum, Field.ofDatum, if_pos (Field.all_isSome_ofTomlEntries es),
    List.mapM_cons, List.mapM_nil] at h
  simp only [Option.bind_eq_bind, Option.bind_eq_some_iff] at h
  obtain ⟨fields, ⟨server, hserver, rest, -, hfields⟩, hread⟩ := h
  cases hfields
  split at hread
  · rename_i heq
    cases heq
    simp only [Option.bind_eq_some_iff] at hread
    obtain ⟨o, ho, t, -, u, -, l, -, hc⟩ := hread
    cases hc
    rw [hserver]
    exact ho
  · exact nomatch hread

/-! ## The server options in a file -/

theorem load_of_missing {fs : Files} {path : String} (h : fs.exists? path = false) :
    load fs path = {} := by
  simp [load, read?, h]

/-- Options that can be read count only if they can be used. -/
theorem load_of_readText {fs : Files} {path : String} {cs : List Char}
    (h : fs.readText path = .ok cs) :
    load fs path = match parse cs with
      | none => {}
      | some o => if o.port = 0 then {} else o := by
  rw [load, read?, Files.exists_of_readText h, h]
  cases hparse : parse cs with
  | none => simp [hparse]
  | some o => by_cases hp : o.port = 0 <;> simp [hparse, check, hp]

theorem load_port_ne_zero (fs : Files) (path : String) : (load fs path).port ≠ 0 := by
  cases hexists : fs.exists? path with
  | false => simp [load_of_missing hexists]
  | true =>
    cases hread : fs.readText path with
    | error e => simp [load, read?, hexists, hread]
    | ok cs =>
      rw [load_of_readText hread]
      split
      · simp
      · split <;> simp_all

theorem load_of_config {fs : Files} {path : String} {c : Config} (h : Config.load fs path = .ok c) :
    load fs path = c.server := by
  cases hexists : fs.exists? path with
  | false =>
    rw [Config.load_of_missing hexists] at h
    cases h
    exact load_of_missing hexists
  | true =>
    cases hread : fs.readText path with
    | error e => simp [Config.load, hexists, hread, bind, Except.bind] at h
    | ok cs =>
      rw [Config.load_of_readText hread] at h
      split at h
      · exact nomatch h
      · rename_i hparse
        split at h
        · rename_i hcheck
          cases h
          have hport := (check_eq_ok_iff _).1 ((Config.check_eq_ok_iff _).1 hcheck).1
          obtain ⟨es, hes, hconfig⟩ := Option.bind_eq_some_iff.1 hparse
          have hoptions : parse cs = some c.server := by
            simp [parse, hes, ofToml?_of_config hconfig]
          simp [load_of_readText hread, hoptions, hport]
        · exact nomatch h

/-- The server options can always be read and used. They are those of the settings, where the settings
can be read; and in two files that are documents they are the same if both give the key `server` values
that say the same, or none. -/
theorem load_agrees (fs : Files) (path : String) :
    (load fs path).port ≠ 0 ∧
    (∀ c, Config.load fs path = .ok c → load fs path = c.server) ∧
    ∀ fs' path' cs cs' es es', fs.readText path = .ok cs → fs'.readText path' = .ok cs' →
      Toml.parse cs = some es → Toml.parse cs' = some es' →
      Option.Rel Toml.Same (es.get? "server") (es'.get? "server") →
      load fs path = load fs' path' := by
  refine ⟨load_port_ne_zero fs path, fun c => load_of_config, ?_⟩
  intro fs' path' cs cs' es es' hread hread' hparse hparse' hsame
  have hoptions : parse cs = parse cs' := by
    simp only [parse, hparse, hparse', Option.bind_some, ofToml?_eq_get? (Toml.distinct_parse hparse),
      ofToml?_eq_get? (Toml.distinct_parse hparse')]
    generalize es.get? "server" = v, es'.get? "server" = w at hsame
    cases hsame with
    | none => rfl
    | some h => exact ofDatum_same h
  rw [load_of_readText hread, load_of_readText hread', hoptions]

/-- One value of `server` under a header and one in braces, each beside settings that make no sense. -/
theorem load_agrees_across_forms :
    let fs : Files := { nodes := [
      (["a"], .file (Text.Utf8.encode "[server]\nport = 9\nverbose = true\n[tool]\nsource = 1\n".toList) 0o644),
      (["b"], .file (Text.Utf8.encode "update = 2\nserver = \x7bverbose = true, port = 9\x7d\n".toList) 0o644)] }
    load fs "/a" = load fs "/b" ∧ (load fs "/a").port = 9 := by
  intro fs
  have hread : fs.readText "/a" =
      .ok "[server]\nport = 9\nverbose = true\n[tool]\nsource = 1\n".toList := by decide +kernel
  have hread' : fs.readText "/b" =
      .ok "update = 2\nserver = \x7bverbose = true, port = 9\x7d\n".toList := by decide +kernel
  have hparse : Toml.parse "[server]\nport = 9\nverbose = true\n[tool]\nsource = 1\n".toList =
      some [("server", .table .header [("port", .integer 9), ("verbose", .boolean true)]),
        ("tool", .table .header [("source", .integer 1)])] := by rfl
  have hparse' : Toml.parse "update = 2\nserver = \x7bverbose = true, port = 9\x7d\n".toList =
      some [("update", .integer 2),
        ("server", .table .inline [("verbose", .boolean true), ("port", .integer 9)])] := by rfl
  have hsame : Toml.Same (.table .header [("port", .integer 9), ("verbose", .boolean true)])
      (.table .inline [("verbose", .boolean true), ("port", .integer 9)]) :=
    .table rfl (.cons (.integer 9) (.cons (.boolean true) .nil)) (.swap ..)
  exact ⟨(load_agrees fs "/a").2.2 fs "/b" _ _ _ _ hread hread' hparse hparse' (.some hsame),
    by decide +kernel⟩

end ServerOptions

end Steward
