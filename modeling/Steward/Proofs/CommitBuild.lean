import Mathlib.Tactic.Choose
import Steward.Proofs.JsonSpelling
import Steward.Proofs.TagResolution
import Steward.Proofs.UpdateVerdict

/-!
# Builds of a commit

A build of a commit names itself by the commit behind the last hyphen of its version. The version stands in a JSON
record, under `Main` and there under `Version`; `Version.BuildText` are the texts of such records, in any layout and
with any other strings in them. What the update check makes of such a build depends on seven characters of its
commit and seven of the tip, and on nothing else.
-/

set_option autoImplicit false

namespace Steward

/-! ## Blanks at the ends -/

namespace Text

/-- Neither the first nor the last character is a blank. -/
def IsTight (cs : List Char) : Prop :=
  (∀ c ∈ cs.head?, isBlank c = false) ∧ ∀ c ∈ cs.getLast?, isBlank c = false

theorem IsTight.trim {cs : List Char} (h : IsTight cs) : trim cs = cs := by
  have hstart : trimStart cs = cs := by
    cases cs with
    | nil => rfl
    | cons c cs => simp [trimStart, h.1 c rfl]
  rw [Text.trim, hstart, trimEnd]
  rcases List.eq_nil_or_concat cs with rfl | ⟨front, d, rfl⟩
  · rfl
  · rw [List.concat_eq_append] at h ⊢
    exact dropEndWhile_concat (h.2 d (by simp)) front

/-- What is trimmed away altogether is blank. -/
theorem blank_of_trim {cs : List Char} (h : trim cs = []) : ∀ c ∈ cs, isBlank c = true := by
  have hend : ∀ {ds : List Char}, dropEndWhile isBlank ds = [] → ∀ c ∈ ds, isBlank c = true := by
    intro ds
    induction ds with
    | nil => exact fun _ => List.forall_mem_nil _
    | cons d ds ih =>
      intro hnil
      rw [dropEndWhile] at hnil
      split at hnil
      · rename_i hds
        split at hnil
        · rename_i hd
          exact List.forall_mem_cons.2 ⟨hd, ih hds⟩
        · cases hnil
      · cases hnil
  have hstart := hend h
  rw [trimStart] at hstart
  have hall : cs.dropWhile isBlank = [] := by
    cases hdrop : cs.dropWhile isBlank with
    | nil => rfl
    | cons d ds =>
      have hd := List.head_dropWhile_not isBlank (l := cs) (by simp [hdrop])
      simp only [hdrop, List.head_cons] at hd
      rw [hdrop] at hstart
      rw [hstart d List.mem_cons_self] at hd
      cases hd
  exact List.dropWhile_eq_nil_iff.1 hall

end Text

/-! ## Records of build information -/

namespace Version

/-- A record with one member of that name, whose value is written like that, among strings under other names. -/
def RecordText (name : String) (IsValue : List Char → Prop) (cs : List Char) : Prop :=
  ∃ before value after, Json.ObjectText (before ++ (name, value) :: after) cs ∧ IsValue value ∧
    ∀ m ∈ before ++ after, m.1 ≠ name ∧ Json.IsString m.2

/-- Build information that tells the version. -/
def BuildText (version : String) (text : List Char) : Prop :=
  ∃ g₁ record g₂, Json.IsGap g₁ ∧ Json.IsGap g₂ ∧
    RecordText "Main" (RecordText "Version" (Json.Spelled version)) record ∧ text = g₁ ++ (record ++ g₂)

theorem ofJsonMembers_eq_map (ms : List (Json.Literal × Json.Value)) :
    Datum.ofJsonMembers ms = ms.map fun m => (m.1, Datum.ofJson m.2) := by
  induction ms with
  | nil => rfl
  | cons m ms ih => rw [Datum.ofJsonMembers, ih, List.map_cons]

/-- The field of a record is found among the others. -/
theorem ofDatum_sole {name : String} {v : Json.Value} {before after : List (String × Json.Value)}
    (h : ∀ m ∈ before ++ after, m.1 ≠ name) :
    Field.ofDatum .refused [name] (.ofJson (.ofMembers (before ++ (name, v) :: after))) =
      some [.given (.ofJson v)] := by
  have others : ∀ l : List (String × Json.Value), (∀ m ∈ l, m.1 ≠ name) →
      (l.map fun m => (some m.1, Datum.ofJson m.2)).filter (fun m => m.1 == some name) = [] := by
    intro l hl
    refine List.filter_eq_nil_iff.2 fun m hm => ?_
    obtain ⟨m', hm', rfl⟩ := List.mem_map.1 hm
    simpa using hl m' hm'
  have hsole : Field.byName ((before ++ (name, v) :: after).map fun m => (some m.1, Datum.ofJson m.2)) name =
      some (.given (.ofJson v)) := by
    rw [Field.byName, List.map_append, List.map_cons, List.filter_append,
      others before fun m hm => h m (List.mem_append_left _ hm),
      List.filter_cons_of_pos (by simp), others after fun m hm => h m (List.mem_append_right _ hm)]
    rfl
  have hdatum : Datum.ofJson (.ofMembers (before ++ (name, v) :: after)) =
      .members ((before ++ (name, v) :: after).map fun m => (some m.1, Datum.ofJson m.2)) := by
    rw [Json.Value.ofMembers, Datum.ofJson, ofJsonMembers_eq_map, List.map_map]
    rfl
  rw [hdatum, Field.ofDatum, if_pos (by simp), List.mapM_cons, hsole]
  rfl

/-- A record is read for the value of its member. -/
theorem reads_record {name : String} {IsValue : List Char → Prop} {Says : Json.Value → Prop}
    (hvalue : ∀ cs, IsValue cs → ∃ v, Json.Reader.Reads cs v ∧ Says v) {cs : List Char}
    (h : RecordText name IsValue cs) :
    ∃ v, Json.Reader.Reads cs v ∧
      ∃ w, Field.ofDatum .refused [name] (.ofJson v) = some [.given (.ofJson w)] ∧ Says w := by
  obtain ⟨before, value, after, hobject, hmember, hothers⟩ := h
  obtain ⟨w, hreads, hsays⟩ := hvalue value hmember
  have hall : ∀ m : String × List Char, ∃ v, m ∈ before ++ (name, value) :: after →
      Json.Reader.Reads m.2 v ∧ (m.1 = name → v = w) := by
    intro m
    by_cases hm : m = (name, value)
    · exact ⟨w, fun _ => ⟨hm ▸ hreads, fun _ => rfl⟩⟩
    · by_cases hmem : m ∈ before ++ (name, value) :: after
      · have hother : m ∈ before ++ after := by simpa [hm] using hmem
        obtain ⟨hne, hstring⟩ := hothers m hother
        obtain ⟨literal, hliteral⟩ := Json.Reader.reads_string hstring
        exact ⟨_, fun _ => ⟨hliteral, fun heq => absurd heq hne⟩⟩
      · exact ⟨.null, fun hin => absurd hin hmem⟩
  choose f hf using hall
  refine ⟨_, Json.Reader.reads_object hobject fun m hm => (hf m hm).1, w, ?_, hsays⟩
  have hname : f (name, value) = w := (hf _ (by simp)).2 rfl
  rw [List.map_append, List.map_cons, hname]
  refine ofDatum_sole fun m hm => ?_
  rw [← List.map_append] at hm
  obtain ⟨m', hm', rfl⟩ := List.mem_map.1 hm
  exact (hothers m' hm').1

theorem buildVersion_of_text {version : String} {text : List Char} (h : BuildText version text) :
    (Json.parse text).bind buildVersion? = some version := by
  obtain ⟨g₁, record, g₂, h₁, h₂, hrecord, rfl⟩ := h
  have hversion : ∀ cs, Json.Spelled version cs → ∃ v, Json.Reader.Reads cs v ∧ v = .text version :=
    fun cs hcs => ⟨_, Json.Reader.reads_spelled hcs, rfl⟩
  obtain ⟨v, hreads, main, hmain, inner, hinner, rfl⟩ :=
    reads_record (fun _ hinner => reads_record hversion hinner) hrecord
  rw [Json.parse_of_reads hreads h₁ h₂, Option.bind_some, buildVersion?, hmain]
  simp [Field.required, mainVersion?, hinner, Json.Value.text, Datum.ofJson, Datum.text?]

/-- A build of a commit is known by the commit. -/
theorem identity_of_commit {p c : String} (hc : c ≠ "") (hhyphen : '-' ∉ c.toList) (htight : Text.IsTight c.toList) :
    identity? (p ++ "-" ++ c) = some c := by
  have htail : buildTail (p ++ "-" ++ c) = c.toList := by
    have hlist : (p ++ "-" ++ c).toList = p.toList ++ '-' :: c.toList := by simp
    rw [buildTail, Text.afterLast, hlist, Text.splitLast_append hhyphen]
    exact htight.trim
  rw [identity?, htail]
  cases hcs : c.toList with
  | nil => exact absurd (String.toList_eq_nil_iff.1 hcs) hc
  | cons x cs =>
    show some (String.ofList (x :: cs)) = some c
    rw [← hcs, String.ofList_toList]

/-- Without a release tag on it, the tip itself is published. -/
theorem published_of_tip {excluded tip : String} {tags : List Tag} (htip : ∃ x ∈ tip.toList, Text.isBlank x = false)
    (htags : ∀ tag ∈ tags, ¬ tag.Eligible excluded tip) : published? excluded tip tags = some tip := by
  have hblank : isBlankTip tip = false := by
    rw [isBlankTip, List.isEmpty_eq_false_iff]
    intro hnil
    obtain ⟨x, hx, hxb⟩ := htip
    rw [Text.blank_of_trim hnil x hx] at hxb
    cases hxb
  rw [published?, hblank, resolve_of_none htags]
  rfl

/-- The short form ends between two characters: its bytes are the first bytes of the version. -/
theorem short_boundary (v : String) :
    (short v).toList = v.toList.take 7 ∧ (short v).rawEndPos.IsValid v ∧
      v.toByteArray.extract 0 (short v).utf8ByteSize = (short v).toByteArray := by
  have hsplit : v = short v ++ String.ofList (v.toList.drop shortLength) := by
    rw [short, ← String.ofList_append, List.take_append_drop, String.ofList_toList]
  refine ⟨String.toList_ofList, String.Pos.Raw.isValid_iff_exists_append.2 ⟨_, _, hsplit, rfl⟩, ?_⟩
  have hbytes : v.toByteArray = (short v).toByteArray ++ (String.ofList (v.toList.drop shortLength)).toByteArray := by
    rw [← String.toByteArray_append, ← hsplit]
  rw [hbytes]
  exact ByteArray.extract_append_eq_left rfl

end Version

/-! ## The verdict -/

section Verdict

variable {ε : Type} {env : Environment ε} {s : Service} {acts₀ : List Act} {w₀ w : World ε}
  {past : List (Episode ε)} {p c tip excluded : String} {output : CommandOutput} {tags : List Version.Tag}
  {a : Update.Answers}

theorem Update.Answers.versions_of_commit (hbuild : a.build = .ok output) (hsuccess : output.success = true)
    (hrecord : Version.BuildText (p ++ "-" ++ c) output.stdout.toList) (hc : c ≠ "") (hhyphen : '-' ∉ c.toList)
    (htight : Text.IsTight c.toList) (htold : a.tip = .ok tip ∧ a.tags = .ok tags)
    (htip : ∃ x ∈ tip.toList, Text.isBlank x = false) (htags : ∀ tag ∈ tags, ¬ tag.Eligible excluded tip) :
    a.versions? excluded = some ⟨c, tip⟩ := by
  have hinstalled : installedIn a.build = some c := by
    rw [hbuild, installedIn, if_pos hsuccess,
      Version.toOption_ofBuildInfo (Version.buildVersion_of_text hrecord),
      Version.identity_of_commit hc hhyphen htight]
  have hpublished : publishedIn excluded a.tip a.tags = some tip := by
    rw [htold.1, htold.2, publishedIn, Version.published_of_tip htip htags]
  rw [versions?, hinstalled, hpublished]
  rfl

/-- **Builds of a commit are compared by the commit.** Take an update check in any run, with anything else going on.
The tool that it finds is a build of the commit `c`, told in build information of any layout and with any other
strings in it; the tip is not blank and no tag on it gives it a version.

* The check finds the tool up to date just if the first seven characters of the commit and of the tip agree. Then
  the host sees nothing; otherwise an update is offered under the short form of the tip.
* Until it returns, it takes its next step whenever it is its turn, unless it waits for a command or for the user,
  and it puts at most 17 requests.
* A short form is cut between two characters. -/
theorem Course.commit_build_recognised_iff (hc : c ≠ "") (hhyphen : '-' ∉ c.toList)
    (htight : Text.IsTight c.toList) (hrecord : Version.BuildText (p ++ "-" ++ c) output.stdout.toList)
    (hsuccess : output.success = true) (htip : ∃ x ∈ tip.toList, Text.isBlank x = false)
    (htags : ∀ tag ∈ tags, ¬ tag.Eligible s.excludedTagStart tip) (h₀ : Run env s acts₀ w₀)
    (h : Course env s (w₀.called s .checkForUpdates) past w) :
    (∀ (o : Outcome) (a : Update.Answers), w.result? w₀.tasks.length = some o →
      a.Told s.excludedTagStart (tidingsIn (exchanges w₀.tasks.length (actsOf past))) →
      a.path ≠ none → a.build = .ok output → a.tip = .ok tip → a.tags = .ok tags →
      ((∃ versions, o = .check (some (.upToDate versions))) ↔ c.toList.take 7 = tip.toList.take 7) ∧
      o ≠ .check (some .skipped) ∧ o ≠ .check (some .toolMissing) ∧
      (c.toList.take 7 = tip.toList.take 7 →
        o = .check (some (.upToDate ⟨c, tip⟩)) ∧ sightsIn s (exchanges w₀.tasks.length (actsOf past)) = []) ∧
      (c.toList.take 7 ≠ tip.toList.take 7 → ∃ rest,
        sightsIn s (exchanges w₀.tasks.length (actsOf past)) =
          .prompt .info ("A new version (" ++ Version.short tip ++ ") of " ++ s.tool ++ " is available.")
            ["Update Now"] :: rest)) ∧
    (w.result? w₀.tasks.length = none →
      (w.attempt env s.roles w₀.tasks.length).isSome = true ∨
      (∃ ticket k, w.pending w₀.tasks.length = some ⟨.awaitCommand ticket, k⟩ ∧
        env.result? w.outside ticket = none) ∨
      ∃ ticket k, w.pending w₀.tasks.length = some ⟨.awaitPrompt ticket, k⟩ ∧
        env.reply? w.outside ticket = none) ∧
    (actsOf past).countP (·.task? == some w₀.tasks.length) ≤ 17 ∧
    ∀ v : String, (Version.short v).toList = v.toList.take 7 ∧ (Version.short v).rawEndPos.IsValid v ∧
      v.toByteArray.extract 0 (Version.short v).utf8ByteSize = (Version.short v).toByteArray := by
  refine ⟨?_, fun hres => h.check_goes_on h₀ hres, h.steps_le h₀ (checkForUpdates_endsIn s),
    Version.short_boundary⟩
  intro o a ho ha hpath hbuild htold htold'
  obtain ⟨b, hb, rfl, hseen⟩ := h.told_of_check h₀ ho
  obtain ⟨hverdict, hsights⟩ := hb.unique ha
  rw [hseen, hverdict, hsights]
  obtain ⟨path, hpath⟩ := Option.ne_none_iff_exists'.1 hpath
  have hversions := a.versions_of_commit hbuild hsuccess hrecord hc hhyphen htight ⟨htold, htold'⟩ htip htags
  by_cases hsame : c.toList.take 7 = tip.toList.take 7
  · have hoffered : a.offered? s.excludedTagStart = none := by
      simp only [Update.Answers.offered?, hpath, hversions, if_pos hsame]
    have hupToDate : a.verdict s.excludedTagStart = .upToDate ⟨c, tip⟩ := by
      rw [Update.Answers.verdict_of_not_offered hoffered, hpath, hversions]
    have hsilent : a.sights s = [] := by rw [Update.Answers.sights, hoffered]
    rw [hupToDate, hsilent]
    refine ⟨iff_of_true ⟨_, rfl⟩ hsame, by simp, by simp, fun _ => ⟨rfl, rfl⟩, ?_⟩
    intro hdiffer
    exact absurd hsame hdiffer
  · have hoffered : a.offered? s.excludedTagStart = some ⟨c, tip⟩ := by
      simp only [Update.Answers.offered?, hpath, hversions, if_neg hsame]
    have hprompt : ∃ rest, a.sights s = .prompt .info ("A new version (" ++ Version.short tip ++ ") of " ++
        s.tool ++ " is available.") ["Update Now"] :: rest := by
      rw [Update.Answers.sights, hoffered]
      exact ⟨_, rfl⟩
    have hother : a.verdict s.excludedTagStart ≠ .skipped ∧ a.verdict s.excludedTagStart ≠ .toolMissing ∧
        ∀ versions, a.verdict s.excludedTagStart ≠ .upToDate versions := by
      rw [Update.Answers.verdict_of_offered hoffered]
      split
      · simp
      · split <;> simp
    obtain ⟨hskipped, hmissing, hupToDate⟩ := hother
    refine ⟨iff_of_false ?_ hsame, by simpa using hskipped, by simpa using hmissing,
      fun heq => absurd heq hsame, fun _ => hprompt⟩
    rintro ⟨versions, heq⟩
    exact hupToDate versions (by simpa using heq)

end Verdict

namespace Rehearsal

/-- Build information with the commit `feedfaé1`, one of its characters escaped. -/
def commitInfo : CommandOutput where
  stdout := "\x7b \"GoVersion\": \"go1.24\", \"Main\":\x7b\"Version\": \"v0-2024-feedfa\\u00e91\"\x7d\x7d\n"

/-- A build of a commit that agrees with the tip in seven characters. -/
def committed : Script where
  versionResult := .ok commitInfo
  tip := .ok "feedfaé00"
  tags := .ok [⟨"nightly", "feedfaé00"⟩]

theorem buildText_commitInfo :
    Version.BuildText ("v0-2024" ++ "-" ++ "feedfaé1") commitInfo.stdout.toList := by
  have hplain : ∀ text : String, (∀ c ∈ text.toList, c ≠ '"' ∧ c ≠ '\\' ∧ 0x20 ≤ c.toNat) →
      Json.Spelled text ('"' :: (text.toList ++ ['"'])) := by
    intro text htext
    have hspells := Json.spells_plain htext .nil
    rw [List.append_nil] at hspells
    exact ⟨text.toList, hspells, rfl⟩
  have hversion : Json.Spelled "v0-2024-feedfaé1" "\"v0-2024-feedfa\\u00e91\"".toList := by
    refine ⟨"v0-2024-feedfa".toList ++ '\\' :: 'u' :: (['0', '0', 'e', '9'] ++ ['1']), ?_, by decide +kernel⟩
    have htext : "v0-2024-feedfaé1".toList = "v0-2024-feedfa".toList ++ ['é', '1'] := by simp
    rw [htext]
    refine Json.spells_plain (by simp) (.code ⟨rfl, rfl⟩ ?_)
    exact .plain (by simp) (by simp) (by simp) .nil
  have hmain : Version.RecordText "Version" (Json.Spelled "v0-2024-feedfaé1")
      "\x7b\"Version\": \"v0-2024-feedfa\\u00e91\"\x7d".toList := by
    refine ⟨[], _, [], ⟨"\"Version\": \"v0-2024-feedfa\\u00e91\"".toList, .last ?_, by decide +kernel⟩, hversion, nofun⟩
    exact ⟨[], _, [], [' '], [], nofun, hplain "Version" (by simp), nofun, by simp [Json.IsGap], nofun,
      by decide +kernel⟩
  have hother : Json.Spelled "go1.24" "\"go1.24\"".toList := hplain "go1.24" (by simp)
  have hfirst : Json.Member "GoVersion" "\"go1.24\"".toList " \"GoVersion\": \"go1.24\"".toList :=
    ⟨[' '], _, [], [' '], [], by simp [Json.IsGap], hplain "GoVersion" (by simp), nofun, by simp [Json.IsGap],
      nofun, by decide +kernel⟩
  have hsecond : Json.Member "Main" "\x7b\"Version\": \"v0-2024-feedfa\\u00e91\"\x7d".toList
      " \"Main\":\x7b\"Version\": \"v0-2024-feedfa\\u00e91\"\x7d".toList :=
    ⟨[' '], _, [], [], [], by simp [Json.IsGap], hplain "Main" (by simp), nofun, nofun, nofun, by decide +kernel⟩
  refine ⟨[], _, ['\n'], nofun, by simp [Json.IsGap], ⟨[("GoVersion", "\"go1.24\"".toList)], _, [],
    ⟨_, .cons hfirst (.last hsecond), rfl⟩, hmain, ?_⟩, by decide +kernel⟩
  intro m hm
  obtain rfl : m = ("GoVersion", "\"go1.24\"".toList) := by simpa using hm
  exact ⟨by simp, hother.isString⟩

end Rehearsal

/-- The seventh character is written in two bytes, and escaped in the record. -/
theorem commit_build_recognised : ∃ past w,
    Course Rehearsal.Script.environment Rehearsal.sample
      ((Rehearsal.scene Rehearsal.committed []).2.called Rehearsal.sample .checkForUpdates) past w ∧
    w.result? 0 = some (.check (some (.upToDate ⟨"feedfaé1", "feedfaé00"⟩))) ∧
    sightsIn Rehearsal.sample (exchanges 0 (actsOf past)) = [] := by
  have hcourse := Rehearsal.course_sequel (Rehearsal.scene Rehearsal.committed []).2 .checkForUpdates
    Rehearsal.looked
  have hresult : (Rehearsal.sequel (Rehearsal.scene Rehearsal.committed []).2 .checkForUpdates
      Rehearsal.looked).2.result? 0 = some (.check (some (.upToDate ⟨"feedfaé1", "feedfaé00"⟩))) := by
    decide +kernel
  have htold : (⟨some Rehearsal.defaultPath, .ok Rehearsal.commitInfo, .ok "feedfaé00",
      .ok [⟨"nightly", "feedfaé00"⟩], none, none, .ok {}⟩ : Update.Answers).Told Rehearsal.sample.excludedTagStart
        (tidingsIn (exchanges 0 (actsOf (Rehearsal.sequel (Rehearsal.scene Rehearsal.committed []).2
          .checkForUpdates Rehearsal.looked).1))) :=
    ⟨_, .refl _, by decide +kernel⟩
  have htip : ∃ x ∈ "feedfaé00".toList, Text.isBlank x = false := ⟨'f', by simp, rfl⟩
  have htags : ∀ tag ∈ [(⟨"nightly", "feedfaé00"⟩ : Version.Tag)],
      ¬ tag.Eligible Rehearsal.sample.excludedTagStart "feedfaé00" := by decide +kernel
  have htight : Text.IsTight "feedfaé1".toList := by simp [Text.IsTight, Text.isBlank]
  obtain ⟨hverdict, -⟩ := Course.commit_build_recognised_iff (p := "v0-2024") (c := "feedfaé1") (by simp)
    (by simp) htight Rehearsal.buildText_commitInfo rfl htip htags
    (Rehearsal.run_scene Rehearsal.committed []) hcourse
  obtain ⟨-, -, -, hagree, -⟩ := hverdict _ _ hresult htold (by simp) rfl rfl rfl
  obtain ⟨-, hsilent⟩ := hagree (by simp)
  exact ⟨_, _, hcourse, hresult, hsilent⟩

end Steward
