import Steward.OutputLog.File
import Steward.Proofs.CommitBuild
import Steward.Proofs.TagResolution
import Steward.Proofs.Wiring

/-!
# What a source says of a tool

A source names a tool if it splits into a module path and a version (`Tool.Identity.IsSplit`). The version stands
behind the last `@`, the name of the program behind the last slash of the path; in front of these there may be
more of either. The name holds no slash, so the log of the tool is a file right in the log directory, whatever
that directory is called (`Path.parts_join`).
-/

set_option autoImplicit false

namespace Steward

/-! ## Trimmed texts -/

namespace Text

theorem getLast_dropEndWhile (p : Char → Bool) (cs : List Char) :
    ∀ c ∈ (dropEndWhile p cs).getLast?, p c = false := by
  induction cs with
  | nil => simp [dropEndWhile]
  | cons d cs ih =>
    rw [dropEndWhile]
    cases hrest : dropEndWhile p cs with
    | nil =>
      dsimp only
      split
      · simp
      · rintro c hc
        obtain rfl : d = c := by simpa using hc
        simpa using ‹¬ p d = true›
    | cons e es =>
      rw [hrest] at ih
      intro c hc
      rw [List.getLast?_cons_cons] at hc
      exact ih c hc

theorem isTight_trim (cs : List Char) : IsTight (trim cs) := by
  refine ⟨fun c hc => ?_, getLast_dropEndWhile isBlank _⟩
  have hfront : c ∈ (trimStart cs).head? := by
    obtain ⟨rest, hrest⟩ := dropEndWhile_isPrefix isBlank (trimStart cs)
    rw [← hrest, List.head?_append]
    rw [trim, trimEnd] at hc
    simp [Option.mem_def.1 hc]
  rw [trimStart] at hfront
  have hnot := List.head?_dropWhile_not isBlank cs
  simpa [Option.mem_def.1 hfront] using hnot

/-- Trimming twice is trimming once. -/
theorem trim_trim (cs : List Char) : trim (trim cs) = trim cs := (isTight_trim cs).trim

/-- The part behind the last separator has none in it, and what stands before it ends with one. -/
theorem afterLast_split (sep : Char) (cs : List Char) : sep ∉ afterLast sep cs ∧
    (cs = afterLast sep cs ∨ ∃ before, cs = before ++ sep :: afterLast sep cs) := by
  by_cases hmem : sep ∈ cs
  · obtain ⟨before, behind, rfl, hb⟩ := exists_last hmem
    rw [afterLast, splitLast_append hb]
    exact ⟨hb, .inr ⟨before, rfl⟩⟩
  · rw [afterLast, splitLast_of_not_mem hmem]
    exact ⟨hmem, .inl rfl⟩

theorem splitLast_eq_some_iff {sep : Char} {cs before behind : List Char} :
    splitLast sep cs = some (before, behind) ↔ cs = before ++ sep :: behind ∧ sep ∉ behind := by
  constructor
  · intro h
    by_cases hmem : sep ∈ cs
    · obtain ⟨xs, ys, rfl, hys⟩ := exists_last hmem
      rw [splitLast_append hys] at h
      cases h
      exact ⟨rfl, hys⟩
    · rw [splitLast_of_not_mem hmem] at h
      cases h
  · rintro ⟨rfl, hbehind⟩
    exact splitLast_append hbehind before

theorem splitAll_append (sep : Char) (cs ds : List Char) :
    splitAll sep (cs ++ sep :: ds) = splitAll sep cs ++ splitAll sep ds := by
  induction cs with
  | nil => simp [splitAll]
  | cons c cs ih =>
    rw [List.cons_append, splitAll, splitAll, ih]
    split
    · rfl
    · obtain ⟨part, parts, h⟩ := List.exists_cons_of_ne_nil (splitAll_ne_nil sep cs)
      rw [h]
      rfl

end Text

/-! ## Files in a directory -/

namespace Path

theorem pieces_append (p q : String) : pieces (p ++ "/" ++ q) = pieces p ++ pieces q := by
  have hlist : (p ++ "/" ++ q).toList = p.toList ++ '/' :: q.toList := by simp
  rw [pieces, hlist, Text.splitAll_append, List.filter_append, List.map_append, pieces, pieces]

theorem pieces_of_name {name : String} (hne : name ≠ "") (h : '/' ∉ name.toList) : pieces name = [name] := by
  have hsplit : Text.splitAll '/' name.toList = [name.toList] := by
    simpa using Text.splitAll_of_joined h (List.forall_mem_nil _)
  have hfull : name.toList.isEmpty = false := by simpa using hne
  simp [pieces, hsplit, hfull]

theorem isAbsolute_of_name {name : String} (h : '/' ∉ name.toList) : isAbsolute name = false := by
  rw [isAbsolute]
  cases hname : name.toList with
  | nil => rfl
  | cons c cs =>
    rw [hname] at h
    simpa using fun hc : c = '/' => h (hc ▸ List.mem_cons_self)

theorem isAbsolute_append {p : String} (hp : p ≠ "") (q : String) : isAbsolute (p ++ q) = isAbsolute p := by
  obtain ⟨c, cs, hcs⟩ := List.exists_cons_of_ne_nil (mt String.toList_eq_nil_iff.1 hp)
  simp [isAbsolute, hcs]

/-- A name put behind a directory is one part more, and nothing else of the path changes. -/
theorem pieces_join (p : String) {name : String} (hne : name ≠ "") (h : '/' ∉ name.toList) :
    pieces (join p name) = pieces p ++ [name] ∧ isAbsolute (join p name) = isAbsolute p := by
  have habs := isAbsolute_of_name h
  have hname := pieces_of_name hne h
  rw [join, habs, Bool.false_or]
  split
  · rename_i hp
    obtain rfl : p = "" := by simpa using hp
    exact ⟨hname, habs⟩
  · rename_i hp
    have hp : p ≠ "" := by simpa using hp
    split
    · rename_i hslash
      -- the slash at the end stands for the one that would be put in
      obtain ⟨front, hfront⟩ : ∃ front : String, p = front ++ "/" := by
        obtain ⟨xs, hxs⟩ := List.getLast?_eq_some_iff.1 (eq_of_beq hslash)
        exact ⟨String.ofList xs, String.toList_injective (by simp [hxs])⟩
      have hpieces : pieces p = pieces front := by
        have := pieces_append front ""
        rw [String.append_empty, ← hfront] at this
        rw [this]
        exact List.append_nil _
      refine ⟨?_, isAbsolute_append hp name⟩
      rw [hpieces, ← hname, ← pieces_append, ← hfront]
    · refine ⟨?_, ?_⟩
      · rw [pieces_append, hname]
      · rw [String.append_assoc]
        exact isAbsolute_append hp _

/-- **A name put behind a directory is a file right in it.** -/
theorem parts_join (p : String) {name : String} (hne : name ≠ "") (h : '/' ∉ name.toList) (hdot : name ≠ ".") :
    parts (join p name) = parts p ++ [name] := by
  obtain ⟨hpieces, habs⟩ := pieces_join p hne h
  have hdot : (name == ".") = false := by simpa using hdot
  rw [parts, hpieces, habs, parts]
  cases pieces p with
  | nil => simp [hdot]
  | cons first rest =>
    rw [List.cons_append]
    simp only [List.filter_append, List.filter_cons, List.filter_nil, bne, hdot, Bool.not_false, if_true]
    split <;> rfl

theorem parent?_join (p : String) {name : String} (hne : name ≠ "") (h : '/' ∉ name.toList) (hdot : name ≠ ".") :
    parent? (join p name) = some (ofParts (isAbsolute p) (parts p)) := by
  have hparts := parts_join p hne h hdot
  obtain ⟨part, rest, hcons⟩ := List.exists_cons_of_ne_nil (l := parts p ++ [name]) (by simp)
  rw [parent?, hparts, hcons]
  simp only
  rw [← hcons, List.dropLast_concat, (pieces_join p hne h).2]

end Path

/-! ## Sources -/

namespace Tool.Identity

/-- Blanks around it aside, the source is a module path with a name at its end, an `@` and a version. -/
structure IsSplit (source path version : String) : Prop where
  text : Text.trimmed source = path ++ "@" ++ version
  version_ne : version ≠ ""
  last : '@' ∉ version.toList
  path_ne : path ≠ ""
  named : path.toList.getLast? ≠ some '/'

/-- What stands behind the last slash of a path. -/
structure IsLastName (path name : String) : Prop where
  ne : name ≠ ""
  last : '/' ∉ name.toList
  behind : path = name ∨ ∃ directory : String, path = directory ++ "/" ++ name

theorem IsSplit.toList {source path version : String} (h : IsSplit source path version) :
    Text.trim source.toList = path.toList ++ '@' :: version.toList := by
  have := congrArg String.toList h.text
  simpa [Text.trimmed] using this

/-- A source that splits is read, and read as it splits. -/
theorem parse_of_isSplit {source path version : String} (h : IsSplit source path version) : parse source =
    .ok ⟨Text.trimmed source, path, version, String.ofList (Text.afterLast '/' path.toList)⟩ := by
  have hpath : path.toList ≠ [] := mt String.toList_eq_nil_iff.1 h.path_ne
  have hversion : version.toList ≠ [] := mt String.toList_eq_nil_iff.1 h.version_ne
  have hname : Text.afterLast '/' path.toList ≠ [] := by
    rw [Ne, Text.afterLast_eq_nil_iff]
    simp [hpath, h.named]
  have hempty : (path.toList.isEmpty || version.toList.isEmpty || (Text.afterLast '/' path.toList).isEmpty) =
      false := by simp [h.path_ne, h.version_ne, hname]
  simp only [parse, h.toList, Text.splitLast_append h.last, hempty, Text.trimmed, String.ofList_toList]
  rfl

/-- What is read was split, and the name of the program stands last in its path. -/
theorem isSplit_of_parse {source : String} {i : Identity} (h : parse source = .ok i) :
    IsSplit source i.modulePath i.qualifier ∧ i.source = Text.trimmed source ∧
      IsLastName i.modulePath i.binaryName := by
  unfold parse at h
  dsimp only at h
  split at h
  · cases h
  · rename_i path version hsplit
    obtain ⟨hsource, hlast⟩ := Text.splitLast_eq_some_iff.1 hsplit
    split at h
    · cases h
    · rename_i hfull
      obtain ⟨⟨hpath, hversion⟩, hname⟩ : (path ≠ [] ∧ version ≠ []) ∧ Text.afterLast '/' path ≠ [] := by
        simpa using hfull
      obtain rfl := Except.ok.inj h
      refine ⟨⟨?_, ?_, ?_, ?_, ?_⟩, rfl, ?_, ?_, ?_⟩
      · apply String.toList_injective
        simp [Text.trimmed, hsource]
      · simpa using hversion
      · simpa using hlast
      · simpa using hpath
      · intro hslash
        exact hname ((Text.afterLast_eq_nil_iff '/' path).2 (.inr (by simpa using hslash)))
      · simpa using hname
      · simpa using (Text.afterLast_split '/' path).1
      · rcases (Text.afterLast_split '/' path).2 with heq | ⟨before, heq⟩
        · exact .inl (congrArg String.ofList heq)
        · refine .inr ⟨String.ofList before, String.toList_injective ?_⟩
          simpa using heq

theorem IsSplit.unique {source path path' version version' : String} (h : IsSplit source path version)
    (h' : IsSplit source path' version') : path = path' ∧ version = version' := by
  have hread : Text.splitLast '@' (Text.trim source.toList) = some (path.toList, version.toList) := by
    rw [h.toList, Text.splitLast_append h.last]
  have hread' : Text.splitLast '@' (Text.trim source.toList) = some (path'.toList, version'.toList) := by
    rw [h'.toList, Text.splitLast_append h'.last]
  obtain ⟨hpath, hversion⟩ := Prod.mk.inj (Option.some.inj (hread.symm.trans hread'))
  exact ⟨String.toList_injective hpath, String.toList_injective hversion⟩

/-- The source of what was read splits in the same way. -/
theorem IsSplit.trimmed {source path version : String} (h : IsSplit source path version) :
    IsSplit (Text.trimmed source) path version where
  text := by
    rw [← h.text, Text.trimmed, Text.trimmed, String.toList_ofList, Text.trim_trim]
  version_ne := h.version_ne
  last := h.last
  path_ne := h.path_ne
  named := h.named

/-- **A source names a tool just if it splits.** Then it splits in one way only, and

* the source, blanks around it left out, the path and the version are what is read of it, and the name of the
  program is the last one in the path;
* what is read can be read again, to the same identity;
* in whatever directory, the log of the program is a file right in that directory. -/
theorem source_names_tool_iff (source : String) :
    ((∃ i, parse source = .ok i) ↔ ∃ path version, IsSplit source path version) ∧
    ∀ i path version, parse source = .ok i → IsSplit source path version →
      i.source = Text.trimmed source ∧ i.modulePath = path ∧ i.qualifier = version ∧
      IsLastName path i.binaryName ∧ parse i.source = .ok i ∧
      ∀ directory,
        Path.parts (OutputLog.pathFor i.binaryName directory) =
          Path.parts directory ++ [i.binaryName ++ ".log"] ∧
        Path.isAbsolute (OutputLog.pathFor i.binaryName directory) = Path.isAbsolute directory ∧
        Path.parent? (OutputLog.pathFor i.binaryName directory) =
          some (Path.ofParts (Path.isAbsolute directory) (Path.parts directory)) ∧
        '/' ∉ (i.binaryName ++ ".log").toList ∧ i.binaryName ++ ".log" ∉ [".", ".."] := by
  refine ⟨⟨?_, ?_⟩, ?_⟩
  · rintro ⟨i, h⟩
    exact ⟨_, _, (isSplit_of_parse h).1⟩
  · rintro ⟨path, version, h⟩
    exact ⟨_, parse_of_isSplit h⟩
  · intro i path version h hsplit
    obtain ⟨hsplit', hsource, hname⟩ := isSplit_of_parse h
    obtain ⟨rfl, rfl⟩ := hsplit'.unique hsplit
    have hagain : parse i.source = .ok i := by
      have htrim : Text.trimmed (Text.trimmed source) = Text.trimmed source := by
        rw [Text.trimmed, Text.trimmed, String.toList_ofList, Text.trim_trim]
      rw [hsource, parse_of_isSplit hsplit.trimmed, htrim, ← h, parse_of_isSplit hsplit]
    refine ⟨hsource, rfl, rfl, hname, hagain, fun directory => ?_⟩
    have hslash : '/' ∉ (i.binaryName ++ ".log").toList := by simp [hname.last]
    have hlong : ∀ w ∈ ["", ".", ".."], i.binaryName ++ ".log" ≠ w := by
      intro w hw heq
      have hlength := congrArg String.length heq
      rw [String.length_append] at hlength
      have hshort : ∀ w ∈ ["", ".", ".."], w.length < ".log".length := by decide +kernel
      have := hshort w hw
      omega
    exact ⟨Path.parts_join directory (hlong "" (by simp)) hslash (hlong "." (by simp)),
      (Path.pieces_join directory (hlong "" (by simp)) hslash).2,
      Path.parent?_join directory (hlong "" (by simp)) hslash (hlong "." (by simp)), hslash,
      fun hmem => hlong _ (List.mem_cons_of_mem _ hmem) rfl⟩

/-- Separators in both halves, and blanks of several kinds. -/
theorem tangled_source_read :
    let i : Identity := ⟨"a@b//c@tool.v2@v1/x", "a@b//c@tool.v2", "v1/x", "c@tool.v2"⟩
    parse "\u3000a@b//c@tool.v2@v1/x\t" = .ok i ∧ parse i.source = .ok i ∧
      Path.parent? (OutputLog.pathFor i.binaryName "/var//log/.") = some "/var/log" := by
  intro i
  have hsplit : IsSplit "\u3000a@b//c@tool.v2@v1/x\t" "a@b//c@tool.v2" "v1/x" := by
    constructor <;> decide +kernel
  have h : parse "\u3000a@b//c@tool.v2@v1/x\t" = .ok i := by rfl
  obtain ⟨-, hread⟩ := source_names_tool_iff "\u3000a@b//c@tool.v2@v1/x\t"
  obtain ⟨-, -, -, -, hagain, hlog⟩ := hread i _ _ h hsplit
  obtain ⟨-, -, hparent, -⟩ := hlog "/var//log/."
  have hdirectory : Path.ofParts (Path.isAbsolute "/var//log/.") (Path.parts "/var//log/.") = "/var/log" := by
    decide +kernel
  exact ⟨h, hagain, hdirectory ▸ hparent⟩

end Tool.Identity

end Steward
