import Steward.Definition
import Steward.Proofs.CommitBuild
import Steward.Proofs.SettingsReaders

/-!
# Definitions are read back

The JSON form of a definition is an object with a few members (`Definition.fields`). An object is read as a
definition just if each of these members stands in it once, with its value, whatever else stands there
(`Definition.ofJson?_object_iff`). So neither the order of the members nor further ones matter, and the type is
never guessed.
-/

set_option autoImplicit false

namespace Steward

/-! ## Single members -/

namespace Json

/-- Exactly one member has that name, and this is its value. -/
def Sole (ms : List (Literal × Value)) (name : String) (v : Value) : Prop :=
  (ms.filter fun m => m.1 == some name) = [(some name, v)]

theorem Sole.perm {ms ms' : List (Literal × Value)} {name : String} {v : Value} (h : ms.Perm ms')
    (hs : Sole ms name v) : Sole ms' name v := by
  have hp := h.filter fun m => m.1 == some name
  rw [Sole] at hs
  rw [hs] at hp
  exact (List.singleton_perm.1 hp).symm

namespace Value

theorem membersStrict_iff {depth : Nat} {ms : List (Literal × Value)} :
    membersStrict depth ms = true ↔ ∀ m ∈ ms, m.1.isSome = true ∧ m.2.isStrict depth = true := by
  induction ms with
  | nil => simp [membersStrict]
  | cons m ms ih => simp [membersStrict, ih]

theorem membersPlain_iff {ms : List (Literal × Value)} :
    membersPlain ms = true ↔ ∀ m ∈ ms, m.1.isSome = true ∧ m.2.isPlain = true := by
  induction ms with
  | nil => simp [membersPlain]
  | cons m ms ih => simp [membersPlain, ih]

end Value

end Json

namespace Datum

theorem text?_ofJson {v : Json.Value} {s : String} : (ofJson v).text? = some s ↔ v = .text s := by
  cases v with
  | number n =>
    rw [ofJson]
    split
    · split <;> simp [text?, Json.Value.text]
    · simp [text?, Json.Value.text]
  | _ => simp [ofJson, text?, Json.Value.text]

theorem texts?_ofJson {v : Json.Value} {ss : List String} :
    (ofJson v).texts? = some ss ↔ v = .array (ss.map .text) := by
  have items : ∀ (vs : List Json.Value) (ss : List String),
      (ofJsonItems vs).mapM text? = some ss ↔ vs = ss.map .text := by
    intro vs
    induction vs with
    | nil =>
      intro ss
      cases ss <;> simp [ofJsonItems]
    | cons v vs ih =>
      intro ss
      cases ss with
      | nil => simp [ofJsonItems, List.mapM_cons, Option.bind_eq_some_iff]
      | cons s ss =>
        simp [ofJsonItems, List.mapM_cons, Option.bind_eq_some_iff, text?_ofJson, ih]
  cases v with
  | number n =>
    rw [ofJson]
    split
    · split <;> simp [texts?]
    · simp [texts?]
  | array vs => simp [ofJson, texts?, items]
  | _ => simp [ofJson, texts?]

end Datum

namespace Field

/-- A required field is read if it is there once and its value can be read. -/
theorem required_byName_iff {α : Type} {read : Datum → Option α} {ms : List (Json.Literal × Json.Value)}
    {name : String} {a : α} :
    (∃ f, byName (Datum.ofJsonMembers ms) name = some f ∧ f.required read = some a) ↔
      ∃ v, Json.Sole ms name v ∧ read (.ofJson v) = some a := by
  have hfilter : (Datum.ofJsonMembers ms).filter (fun m => m.1 == some name) =
      (ms.filter fun m => m.1 == some name).map fun m => (m.1, Datum.ofJson m.2) := by
    rw [Version.ofJsonMembers_eq_map, List.filter_map]
    rfl
  constructor
  · rintro ⟨f, hf, hread⟩
    obtain ⟨-, rfl⟩ | ⟨e, hone, rfl⟩ := byName_eq_some_iff.1 hf
    · cases hread
    · rw [hfilter] at hone
      obtain ⟨⟨k, v⟩, hsole, hkv⟩ := List.map_eq_singleton_iff.1 hone
      obtain ⟨rfl, rfl⟩ := Prod.mk.inj hkv
      exact ⟨v, hsole, hread⟩
  · rintro ⟨v, hsole, hread⟩
    exact ⟨_, byName_eq_some_iff.2 (.inr ⟨.ofJson v, by rw [hfilter, hsole]; rfl, rfl⟩), hread⟩

theorem byName_of_sole {ms : List (Json.Literal × Json.Value)} {name : String} {v : Json.Value}
    (h : Json.Sole ms name v) : byName (Datum.ofJsonMembers ms) name = some (.given (.ofJson v)) := by
  obtain ⟨f, hf, hread⟩ : ∃ f, byName (Datum.ofJsonMembers ms) name = some f ∧ f.required some = some (.ofJson v) :=
    required_byName_iff.2 ⟨v, h, rfl⟩
  cases f with
  | given d =>
    obtain rfl := Option.some.inj hread
    exact hf
  | omitted | cut => cases hread

theorem text_byName_iff {ms : List (Json.Literal × Json.Value)} {name s : String} :
    (∃ f, byName (Datum.ofJsonMembers ms) name = some f ∧ f.required Datum.text? = some s) ↔
      Json.Sole ms name (.text s) := by
  simp [required_byName_iff, Datum.text?_ofJson]

theorem texts_byName_iff {ms : List (Json.Literal × Json.Value)} {name : String} {ss : List String} :
    (∃ f, byName (Datum.ofJsonMembers ms) name = some f ∧ f.required Datum.texts? = some ss) ↔
      Json.Sole ms name (.array (ss.map .text)) := by
  simp [required_byName_iff, Datum.texts?_ofJson]

end Field

namespace Definition

/-- The members of the JSON form. -/
def fields : Definition → List (String × Json.Value)
  | .stdio name command args =>
    [("type", .text "stdio"), ("name", .text name), ("command", .text command), ("args", .array (args.map .text))]
  | .http name url => [("type", .text "http"), ("name", .text name), ("url", .text url)]

theorem toJson_eq (d : Definition) : d.toJson = .ofMembers d.fields := by
  cases d <;> rfl

/-- Each member of the definition stands there once. -/
def Given (d : Definition) (ms : List (Json.Literal × Json.Value)) : Prop :=
  ∀ f ∈ d.fields, Json.Sole ms f.1 f.2

variable {ms : List (Json.Literal × Json.Value)} {d : Definition}

theorem ofDatum_members (hms : ms.all (·.1.isSome) = true) (surplus : Surplus) (names : List String) :
    Field.ofDatum surplus names (.ofJson (.object ms)) = names.mapM (Field.byName (Datum.ofJsonMembers ms)) := by
  rw [Datum.ofJson, Field.ofDatum, Version.ofJsonMembers_eq_map, if_pos (by simpa using hms)]

theorem httpOfDatum_iff (hms : ms.all (·.1.isSome) = true) {v : Json.Value} (htype : Json.Sole ms "type" v) :
    httpOfDatum (.ofJson (.object ms)) = some d ↔
      ∃ name url, d = .http name url ∧ Json.Sole ms "name" (.text name) ∧ Json.Sole ms "url" (.text url) := by
  simp only [httpOfDatum, ofDatum_members hms, Option.bind_eq_bind, Field.mapM_cons_bind_iff, List.mapM_nil,
    Option.pure_def, Option.bind_some, Field.byName_of_sole htype]
  simp only [Option.bind_eq_some_iff, Option.some.injEq, exists_eq_left', ← Field.text_byName_iff]
  constructor
  · rintro ⟨f, hf, g, hg, name, hname, url, hurl, rfl⟩
    exact ⟨name, url, rfl, ⟨f, hf, hname⟩, g, hg, hurl⟩
  · rintro ⟨name, url, rfl, ⟨f, hf, hname⟩, g, hg, hurl⟩
    exact ⟨f, hf, g, hg, name, hname, url, hurl, rfl⟩

theorem stdioOfDatum_iff (hms : ms.all (·.1.isSome) = true) {v : Json.Value} (htype : Json.Sole ms "type" v) :
    stdioOfDatum (.ofJson (.object ms)) = some d ↔
      ∃ name command args, d = .stdio name command args ∧ Json.Sole ms "name" (.text name) ∧
        Json.Sole ms "command" (.text command) ∧ Json.Sole ms "args" (.array (args.map .text)) := by
  simp only [stdioOfDatum, ofDatum_members hms, Option.bind_eq_bind, Field.mapM_cons_bind_iff, List.mapM_nil,
    Option.pure_def, Option.bind_some, Field.byName_of_sole htype]
  simp only [Option.bind_eq_some_iff, Option.some.injEq, exists_eq_left', ← Field.text_byName_iff,
    ← Field.texts_byName_iff]
  constructor
  · rintro ⟨f, hf, g, hg, e, he, name, hname, command, hcommand, args, hargs, rfl⟩
    exact ⟨name, command, args, rfl, ⟨f, hf, hname⟩, ⟨g, hg, hcommand⟩, e, he, hargs⟩
  · rintro ⟨name, command, args, rfl, ⟨f, hf, hname⟩, ⟨g, hg, hcommand⟩, e, he, hargs⟩
    exact ⟨f, hf, g, hg, e, he, name, hname, command, hcommand, args, hargs, rfl⟩

/-- The type is looked at first, and it alone decides which fields are called for. -/
theorem ofDatum_iff (hms : ms.all (·.1.isSome) = true) :
    ofDatum (.ofJson (.object ms)) = some d ↔ d.Given ms := by
  have hfirst : ofDatum (.ofJson (.object ms)) = some d ↔ ∃ type, Json.Sole ms "type" (.text type) ∧
      (type = "stdio" ∧ stdioOfDatum (.ofJson (.object ms)) = some d ∨
        type = "http" ∧ httpOfDatum (.ofJson (.object ms)) = some d) := by
    simp only [ofDatum, ofDatum_members hms, Option.bind_eq_bind, Field.mapM_cons_bind_iff, List.mapM_nil,
      Option.pure_def, Option.bind_some]
    simp only [Option.bind_eq_some_iff, ← Field.text_byName_iff]
    constructor
    · rintro ⟨f, hf, type, htype, h⟩
      refine ⟨type, ⟨f, hf, htype⟩, ?_⟩
      split at h
      · exact .inl ⟨rfl, h⟩
      · exact .inr ⟨rfl, h⟩
      · cases h
    · rintro ⟨type, ⟨f, hf, htype⟩, h⟩
      refine ⟨f, hf, type, htype, ?_⟩
      rcases h with ⟨rfl, h⟩ | ⟨rfl, h⟩ <;> exact h
  rw [hfirst]
  constructor
  · rintro ⟨type, htype, ⟨rfl, h⟩ | ⟨rfl, h⟩⟩
    · obtain ⟨name, command, args, rfl, hname, hcommand, hargs⟩ := (stdioOfDatum_iff hms htype).1 h
      simp [Given, fields, htype, hname, hcommand, hargs]
    · obtain ⟨name, url, rfl, hname, hurl⟩ := (httpOfDatum_iff hms htype).1 h
      simp [Given, fields, htype, hname, hurl]
  · intro h
    cases d with
    | stdio name command args =>
      obtain ⟨htype, hname, hcommand, hargs⟩ : Json.Sole ms "type" (.text "stdio") ∧
        Json.Sole ms "name" (.text name) ∧ Json.Sole ms "command" (.text command) ∧
        Json.Sole ms "args" (.array (args.map .text)) := by simpa [Given, fields] using h
      exact ⟨"stdio", htype, .inl ⟨rfl, (stdioOfDatum_iff hms htype).2
        ⟨name, command, args, rfl, hname, hcommand, hargs⟩⟩⟩
    | http name url =>
      obtain ⟨htype, hname, hurl⟩ : Json.Sole ms "type" (.text "http") ∧ Json.Sole ms "name" (.text name) ∧
        Json.Sole ms "url" (.text url) := by simpa [Given, fields] using h
      exact ⟨"http", htype, .inr ⟨rfl, (httpOfDatum_iff hms htype).2 ⟨name, url, rfl, hname, hurl⟩⟩⟩

/-- A sound object is read as a definition just if it gives each of its members once. -/
theorem ofJson?_object_iff :
    ofJson? (.object ms) = some d ↔ (Json.Value.object ms).isStrict Json.Value.depthLimit = true ∧ d.Given ms := by
  rw [ofJson?]
  split
  · rename_i hstrict
    have hms : ms.all (·.1.isSome) = true := by
      rw [Json.Value.isStrict, Bool.and_eq_true, Json.Value.membersStrict_iff] at hstrict
      exact List.all_eq_true.2 fun m hm => (hstrict.2 m hm).1
    simp [hstrict, ofDatum_iff hms]
  · rename_i hstrict
    simp [hstrict]

/-! ## Texts -/

/-- What is written into a definition's JSON form can be read again. -/
theorem fields_sound {f : String × Json.Value} (h : f ∈ d.fields) :
    f.2.isPlain = true ∧ f.2.isStrict (Json.Value.depthLimit - 1) = true := by
  have htexts : ∀ ss : List String, Json.Value.arePlain (ss.map .text) = true ∧
      Json.Value.areStrict (Json.Value.depthLimit - 2) (ss.map .text) = true := by
    intro ss
    induction ss with
    | nil => exact ⟨rfl, rfl⟩
    | cons s ss ih => exact ih
  cases d with
  | stdio name command args =>
    simp only [fields, List.mem_cons, List.not_mem_nil, or_false] at h
    obtain rfl | rfl | rfl | rfl := h
    · exact ⟨rfl, rfl⟩
    · exact ⟨rfl, rfl⟩
    · exact ⟨rfl, rfl⟩
    · exact htexts args
  | http name url =>
    simp only [fields, List.mem_cons, List.not_mem_nil, or_false] at h
    obtain rfl | rfl | rfl := h <;> exact ⟨rfl, rfl⟩

/-- The definition's own members in any order, among others. -/
theorem given_of_perm {extra members : List (String × Json.Value)} (hp : members.Perm (d.fields ++ extra))
    (hextra : ∀ m ∈ extra, m.1 ∉ d.fields.map Prod.fst) :
    d.Given (members.map fun m => (some m.1, m.2)) := by
  intro f hf
  refine .perm (hp.symm.map _) ?_
  have hrest : (extra.filter fun m => some m.1 == some f.1) = [] := by
    refine List.filter_eq_nil_iff.2 fun m hm heq => hextra m hm ?_
    rw [show m.1 = f.1 by simpa using heq]
    exact List.mem_map_of_mem hf
  have hown : (d.fields.filter fun m => some m.1 == some f.1) = [f] := by
    cases d with
    | stdio name command args =>
      simp only [fields, List.mem_cons, List.not_mem_nil, or_false] at hf
      obtain rfl | rfl | rfl | rfl := hf <;> rfl
    | http name url =>
      simp only [fields, List.mem_cons, List.not_mem_nil, or_false] at hf
      obtain rfl | rfl | rfl := hf <;> rfl
  rw [Json.Sole, List.filter_map, List.filter_append]
  simp only [Function.comp_def, hown, hrest, List.append_nil, List.map_cons, List.map_nil]

/-- In any order and among further texts, the members of a definition make a value that can be written, and that is
read as the definition. -/
theorem read_of_perm {extra members : List (String × Json.Value)}
    (hextra : ∀ m ∈ extra, m.1 ∉ d.fields.map Prod.fst ∧ ∃ s, m.2 = .text s)
    (hp : members.Perm (d.fields ++ extra)) :
    (Json.Value.ofMembers members).isPlain = true ∧ ofJson? (.ofMembers members) = some d := by
  have hsound : ∀ m ∈ members, m.2.isPlain = true ∧ m.2.isStrict (Json.Value.depthLimit - 1) = true := by
    intro m hm
    obtain hm | hm := List.mem_append.1 (hp.subset hm)
    · exact fields_sound hm
    · obtain ⟨-, s, hs⟩ := hextra m hm
      rw [hs]
      exact ⟨rfl, rfl⟩
  constructor
  · rw [Json.Value.ofMembers, Json.Value.isPlain, Json.Value.membersPlain_iff]
    intro m hm
    obtain ⟨m', hm', rfl⟩ := List.mem_map.1 hm
    exact ⟨rfl, (hsound m' hm').1⟩
  · refine ofJson?_object_iff.2 ⟨?_, given_of_perm hp fun m hm => (hextra m hm).1⟩
    rw [Json.Value.isStrict, Bool.and_eq_true, Json.Value.membersStrict_iff]
    refine ⟨rfl, fun m hm => ?_⟩
    obtain ⟨m', hm', rfl⟩ := List.mem_map.1 hm
    exact ⟨rfl, (hsound m' hm').2⟩

/-- **Definitions survive their JSON form.** The text of a definition is read back as it, also with its members
in another order and with further members of other names. And an object that is read as that definition says the
transport in its one member of that name, and gives each of the fields that this transport calls for once. -/
theorem json_round_trip (d : Definition) :
    parse d.toJson.compact = some d ∧
      (∀ extra members : List (String × Json.Value),
        (∀ m ∈ extra, m.1 ∉ d.fields.map Prod.fst ∧ ∃ s, m.2 = .text s) → members.Perm (d.fields ++ extra) →
          parse (Json.Value.ofMembers members).compact = some d ∧
            ∀ text : String, Json.parse text.toList = some (.ofMembers members) → parse text = some d) ∧
      ∀ (text : String) (ms : List (Json.Literal × Json.Value)), Json.parse text.toList = some (.object ms) →
        parse text = some d →
          Json.Sole ms "type" (.text d.transport.display) ∧ ∀ f ∈ d.fields, Json.Sole ms f.1 f.2 := by
  have hread : ∀ {v : Json.Value}, v.isPlain = true → ofJson? v = some d → parse v.compact = some d := by
    intro v hplain hv
    rw [parse, Json.Value.compact, String.toList_ofList, Json.parse_render _ hplain]
    exact hv
  refine ⟨?_, fun extra members hextra hp => ?_, fun text ms htext h => ?_⟩
  · obtain ⟨hplain, hvalue⟩ := read_of_perm (d := d) (List.forall_mem_nil _) (.refl _)
    rw [List.append_nil, ← toJson_eq] at hplain hvalue
    exact hread hplain hvalue
  · obtain ⟨hplain, hvalue⟩ := read_of_perm hextra hp
    refine ⟨hread hplain hvalue, fun text htext => ?_⟩
    rw [parse, htext]
    exact hvalue
  · rw [parse, htext] at h
    have hgiven : d.Given ms := (ofJson?_object_iff.1 h).2
    refine ⟨hgiven ("type", .text d.transport.display) ?_, hgiven⟩
    cases d <;> exact List.mem_cons_self

/-- A text with the type last and a member that no definition has. -/
def reversedText : String :=
  "\x7b \"note\": \"far away\", \"url\": \"http://host:80\", \"name\": \"Server\", \"type\": \"ht\\u0074p\" \x7d"

theorem reversed_read :
    parse reversedText = some (.http "Server" "http://host:80") ∧
      ∃ ms, Json.parse reversedText.toList = some (.object ms) ∧ Json.Sole ms "type" (.text "http") := by
  obtain ⟨-, hread, hgiven⟩ := json_round_trip (.http "Server" "http://host:80")
  have htext : parse reversedText = some (.http "Server" "http://host:80") :=
    (hread [("note", .text "far away")] _ (by simp [fields]) (List.reverse_perm _)).2 reversedText (by rfl)
  exact ⟨htext, _, by rfl, (hgiven reversedText _ (by rfl) htext).1⟩

end Definition

end Steward
