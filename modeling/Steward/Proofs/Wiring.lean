import Mathlib.Tactic.ByContra
import Steward.CommandLine.Prepare
import Steward.Proofs.Trimming

/-!
# From settings to a service

Settings that pass the check always name a toolchain, but they may still name no tool: the check only
looks for an `@` in the source, wherever it stands. Such settings are accepted and then refused by
every command that needs the tool (`wiring_of_check`).
-/

set_option autoImplicit false

namespace Steward

/-! ## Splitting at the last separator -/

namespace Text

theorem splitLast_of_not_mem {sep : Char} {cs : List Char} (h : sep ∉ cs) :
    splitLast sep cs = none := by
  induction cs with
  | nil => rfl
  | cons c cs ih =>
    rw [List.mem_cons, not_or] at h
    have hc : ¬ c = sep := fun hc => h.1 hc.symm
    simp [splitLast, ih h.2, hc]

theorem splitLast_append {sep : Char} {behind : List Char} (h : sep ∉ behind) (before : List Char) :
    splitLast sep (before ++ sep :: behind) = some (before, behind) := by
  induction before with
  | nil => simp [splitLast, splitLast_of_not_mem h]
  | cons c before ih => simp [splitLast, ih]

theorem exists_last {sep : Char} {cs : List Char} (h : sep ∈ cs) :
    ∃ before behind, cs = before ++ sep :: behind ∧ sep ∉ behind := by
  obtain ⟨xs, ys, hcs, hx⟩ := List.eq_append_cons_of_mem (List.mem_reverse.2 h)
  refine ⟨ys.reverse, xs.reverse, ?_, by simpa using hx⟩
  have := congrArg List.reverse hcs
  simpa using this

theorem afterLast_eq_nil_iff (sep : Char) (cs : List Char) :
    afterLast sep cs = [] ↔ cs = [] ∨ cs.getLast? = some sep := by
  by_cases hmem : sep ∈ cs
  · obtain ⟨before, behind, rfl, hb⟩ := exists_last hmem
    rw [afterLast, splitLast_append hb]
    constructor
    · intro h
      simp only at h
      simp [h]
    · rintro (h | h)
      · simp at h
      · -- a separator at the end is the last one
        by_contra hne
        rw [List.getLast?_append, List.getLast?_cons_of_ne_nil hne] at h
        obtain ⟨c, hc⟩ := Option.ne_none_iff_exists'.1 (mt List.getLast?_eq_none_iff.1 hne)
        rw [hc] at h
        exact hb (Option.some.inj h ▸ List.mem_of_getLast? hc)
  · rw [afterLast, splitLast_of_not_mem hmem]
    constructor
    · intro h
      exact .inl h
    · rintro (h | h)
      · exact h
      · exact absurd (List.mem_of_getLast? h) hmem

theorem mem_dropEndWhile {p : Char → Bool} {c : Char} (hc : p c = false) {cs : List Char} (h : c ∈ cs) :
    c ∈ dropEndWhile p cs := by
  obtain ⟨before, behind, rfl, -⟩ := exists_last h
  induction before with
  | nil =>
    rw [List.nil_append, dropEndWhile]
    cases dropEndWhile p behind <;> simp [hc]
  | cons d before ih =>
    have := ih (by simp)
    rw [List.cons_append, dropEndWhile]
    cases hd : dropEndWhile p (before ++ c :: behind) with
    | nil =>
      rw [hd] at this
      exact absurd this List.not_mem_nil
    | cons e es =>
      rw [hd] at this
      exact List.mem_cons_of_mem d this

theorem mem_trim {c : Char} (hc : isBlank c = false) {cs : List Char} (h : c ∈ cs) : c ∈ trim cs := by
  apply mem_dropEndWhile hc
  obtain ⟨before, behind, rfl⟩ := List.append_of_mem h
  rw [trimStart, List.dropWhile_append]
  split
  · simp [hc]
  · simp

end Text

/-! ## References to tools -/

namespace Tool

/-- Blanks around it aside, a source is a reference to a tool if it is a module path with a name at
its end, an `@` and a version. -/
def IsReference (source : String) : Prop :=
  ∃ path version, Text.trim source.toList = path ++ '@' :: version ∧ '@' ∉ version ∧
    path ≠ [] ∧ path.getLast? ≠ some '/' ∧ version ≠ []

namespace Identity

theorem parse_of_isReference {source : String} (h : IsReference source) :
    ∃ i, parse source = .ok i := by
  obtain ⟨path, version, hs, hv, hpath, hname, hversion⟩ := h
  have hbinary : Text.afterLast '/' path ≠ [] := by
    rw [Ne, Text.afterLast_eq_nil_iff]
    simp [hpath, hname]
  simp [parse, hs, Text.splitLast_append hv, hpath, hversion, hbinary]

theorem parse_of_not_isReference {source : String} (hat : '@' ∈ source.toList)
    (h : ¬ IsReference source) : parse source = .error (.emptyPart (Text.trimmed source)) := by
  obtain ⟨path, version, hs, hv⟩ := Text.exists_last (Text.mem_trim (by rfl) hat)
  have hempty : (path.isEmpty || version.isEmpty || (Text.afterLast '/' path).isEmpty) = true := by
    by_contra hne
    simp only [Bool.or_eq_true, List.isEmpty_iff, not_or, Text.afterLast_eq_nil_iff] at hne
    exact h ⟨path, version, hs, hv, hne.1.1, hne.2.2, hne.1.2⟩
  rw [parse, hs, Text.splitLast_append hv]
  simp only [hempty, if_true, Text.trimmed, hs]

end Identity

end Tool

/-! ## Checked settings -/

theorem ServerOptions.check_eq_ok_iff (o : ServerOptions) : o.check = .ok () ↔ o.port ≠ 0 := by
  unfold check
  split <;> simp_all

/-- A check that fails ends all; one that passes leaves it to the rest. -/
theorem Config.unless_eq_ok_iff {p : Prop} [Decidable p] (fault : Fault)
    (rest : Unit → Except Fault Unit) :
    (if p then throw fault >>= rest else rest ()) = .ok () ↔ ¬ p ∧ rest () = .ok () := by
  by_cases h : p
  · simp [h, throw, throwThe, MonadExceptOf.throw, bind, Except.bind]
  · simp [h]

theorem Config.check_eq_ok_iff (c : Config) :
    c.check = .ok () ↔ c.server.check = .ok () ∧ c.update.timeoutSeconds ≠ 0 ∧
      '@' ∈ c.tool.source.toList ∧ c.tool.hasToolchain = true ∧
      String.ofList (Text.lower c.logging.level.toList) ∈ levels := by
  unfold check
  cases c.server.check with
  | error fault => simp [bind, Except.bind]
  | ok u =>
    have hgo (rest : Unit → Except Fault Unit) : (Except.ok u >>= rest) = rest u := rfl
    simp only [hgo, unless_eq_ok_iff]
    simp [pure, Except.pure, throw, throwThe, MonadExceptOf.throw]

theorem Tool.Toolchain.parse_of_hasToolchain {t : ToolSettings} (h : t.hasToolchain = true) :
    ∃ toolchain, Toolchain.parse t.toolchain = .ok toolchain := by
  unfold ToolSettings.hasToolchain at h
  unfold Toolchain.parse
  split at h
  · rename_i program args hw
    simp [hw]
  · exact nomatch h

theorem OutputLog.kind_of_load {fs : Files} {path : String} {max : Option Nat} {f : Failure}
    (h : OutputLog.load fs path max = .error f) : f.kind = .io := by
  unfold OutputLog.load at h
  split at h
  · exact nomatch h
  split at h
  · cases h
    rfl
  split at h
  · exact nomatch h
  · cases h
    rfl

namespace CommandLine

/-- Without a tool there is no service, and nothing to look for. -/
theorem refused_of_fault {c : Config} {fault : Tool.Identity.Fault}
    (h : Tool.Identity.parse c.tool.source = .error fault) :
    serviceOf c = .error fault.failure ∧ (∀ fs v, locate fs v c = .error fault.failure) ∧
      ∀ fs v lines, logs fs v c lines = .error fault.failure := by
  have hid : identity c = .error fault.failure := by rw [identity, h]
  refine ⟨?_, ?_, ?_⟩
  · simp [serviceOf, hid, bind, Except.bind]
  · intro fs v
    simp [locate, hid, bind, Except.bind]
  · intro fs v lines
    simp [logs, hid, bind, Except.bind]

/-- Settings that pass the check name a toolchain. They make a service if their source is a reference
to a tool; then no command that looks for the tool or its log takes offence at the settings. If it is
none, the service and both commands are refused with one and the same failure. -/
theorem wiring_of_check (c : Config) (h : c.check = .ok ()) :
    (∃ toolchain, Tool.Toolchain.parse c.tool.toolchain = .ok toolchain) ∧
    (Tool.IsReference c.tool.source →
      (∃ i, Tool.Identity.parse c.tool.source = .ok i) ∧
      (∃ s, serviceOf c = .ok s ∧ ∀ fs v f, openLog fs v c s = .error f → f.kind = .io) ∧
      (∀ fs v, ∃ report, locate fs v c = .ok report) ∧
      ∀ fs v lines f, logs fs v c lines = .error f → f.kind = .io) ∧
    (¬ Tool.IsReference c.tool.source →
      let fault := Tool.Identity.Fault.emptyPart (Text.trimmed c.tool.source)
      Tool.Identity.parse c.tool.source = .error fault ∧ serviceOf c = .error fault.failure ∧
      (∀ fs v, locate fs v c = .error fault.failure) ∧
      ∀ fs v lines, logs fs v c lines = .error fault.failure) := by
  obtain ⟨-, -, hat, hwords, -⟩ := (Config.check_eq_ok_iff c).1 h
  obtain ⟨toolchain, htoolchain⟩ := Tool.Toolchain.parse_of_hasToolchain hwords
  refine ⟨⟨toolchain, htoolchain⟩, ?_, ?_⟩
  · intro href
    obtain ⟨i, hi⟩ := Tool.Identity.parse_of_isReference href
    have hid : identity c = .ok i := by rw [identity, hi]
    refine ⟨⟨i, hi⟩, ?_, ?_, ?_⟩
    · simp only [serviceOf, hid, htoolchain, bind, Except.bind, pure, Except.pure]
      refine ⟨_, rfl, ?_⟩
      intro fs v f hf
      unfold openLog at hf
      split at hf
      · exact nomatch hf
      · cases hf
        rfl
    · intro fs v
      simp only [locate, hid, bind, Except.bind]
      split <;> exact ⟨_, rfl⟩
    · intro fs v lines f hf
      simp only [logs, hid, bind, Except.bind] at hf
      split at hf
      · rename_i f' hload
        cases hf
        exact OutputLog.kind_of_load hload
      · exact nomatch hf
  · intro href fault
    have hparse := Tool.Identity.parse_of_not_isReference hat href
    exact ⟨hparse, refused_of_fault hparse⟩

theorem wiring_of_quoted_toolchain :
    let c : Config :=
      { tool := { source := " example.com/x@y/tool@v1 ", toolchain := "env 'A=b c' go # late" } }
    c.check = .ok () ∧ ∃ s, serviceOf c = .ok s := by
  have hcheck : Config.check
      { tool := { source := " example.com/x@y/tool@v1 ", toolchain := "env 'A=b c' go # late" } } =
      .ok () := by
    decide +kernel
  have href : Tool.IsReference " example.com/x@y/tool@v1 " := by
    refine ⟨"example.com/x@y/tool".toList, "v1".toList, ?_⟩
    decide +kernel
  obtain ⟨s, hs, -⟩ := ((wiring_of_check _ hcheck).2.1 href).2.1
  exact ⟨hcheck, s, hs⟩

/-- An `@` behind which no version stands is enough for the check. -/
theorem accepted_without_version :
    let c : Config := { tool := { source := "example.com/tool@" } }
    let fault := Tool.Identity.Fault.emptyPart "example.com/tool@"
    c.check = .ok () ∧ Tool.Identity.parse c.tool.source = .error fault ∧
      serviceOf c = .error fault.failure ∧ ∀ fs v, locate fs v c = .error fault.failure := by
  have hparse : Tool.Identity.parse "example.com/tool@" = .error (.emptyPart "example.com/tool@") := by
    decide +kernel
  obtain ⟨hservice, hlocate, -⟩ :=
    refused_of_fault (c := { tool := { source := "example.com/tool@" } }) hparse
  exact ⟨by decide +kernel, hparse, hservice, hlocate⟩

end CommandLine

end Steward
