import Steward.Proofs.Exchanges
import Steward.Proofs.Release

/-!
# What comes of an update check

A check asks the locator, the toolchain, the repository, the user and the installer, each at most once. `Answers`
are what they say, `Answers.verdict` is what the check makes of it, and `Answers.sights` what the host gets to see
meanwhile: nothing at all unless both versions are known and differ, and then one prompt and, if the user accepts,
one installation between the beginning and the end of a progress indicator.

The two versions are looked up side by side. The order in which this goes on appears nowhere in the verdict: what
the check was told is `Answers.Told` up to the order of the look-ups.
-/

set_option autoImplicit false

namespace Steward

/-! ## What is told and what is seen -/

/-- Something that a check is told. -/
inductive Tiding where
  | located (path : Option String)
  | ran (result : Except Failure CommandOutput)
  | tip (commit : Except Failure String)
  | tags (tags : Except Failure (List Version.Tag))
  | chosen (choice : Option String)
  | installed (byHost : Option Tool.InstallOutcome)
  deriving DecidableEq

def Request.tiding? : (r : Request) → r.Answer → Option Tiding
  | .query .locate, path => some (.located path)
  | .awaitCommand _, result => some (.ran result)
  | .query .tipCommit, commit => some (.tip commit)
  | .query .tags, tags => some (.tags tags)
  | .awaitPrompt _, choice => some (.chosen choice)
  | .query (.hostInstall _), byHost => some (.installed byHost)
  | _, _ => none

/-- Something that the host sees, and the beginning of an installation. -/
inductive Sight where
  | prompt (severity : Severity) (text : String) (choices : List String)
  | notice (notice : Notice) (text : String)
  | progressStarted (title : String)
  | progressFinished (title : String)
  | installer
  | installCommand
  deriving Repr, DecidableEq

def Request.sight? (s : Service) : Request → Option Sight
  | .query (.prompt severity text choices) => some (.prompt severity text choices)
  | .query (.notify notice text) => some (.notice notice text)
  | .query (.progressStarted title) => some (.progressStarted title)
  | .query (.progressFinished title) => some (.progressFinished title)
  | .query (.hostInstall _) => some .installer
  | .query (.command program args) =>
    if program = s.toolchain.program ∧ args = s.toolchain.installArgs s.identity.source then some .installCommand
    else none
  | _ => none

def tidingsIn (l : List Exchange) : List Tiding := l.filterMap fun e => e.request.tiding? e.answer

def sightsIn (s : Service) (l : List Exchange) : List Sight := l.filterMap fun e => e.request.sight? s

/-! ## What the answers come to -/

/-- How an installation went whose command ended like this. -/
def Tool.InstallOutcome.ofCommand : Except Failure CommandOutput → Tool.InstallOutcome
  | .ok output => if output.success then .installed else .failed (Tool.failedInstall output).message
  | .error e => .failed e.message

namespace Update

/-- What a check is told, as far as it asks. -/
structure Answers where
  path : Option String
  /-- how the command went that tells the installed version -/
  build : Except Failure CommandOutput
  tip : Except Failure String
  tags : Except Failure (List Version.Tag)
  choice : Option String
  /-- how the installation went, if the host does it by itself -/
  byHost : Option Tool.InstallOutcome
  /-- how the install command went, if it was run -/
  install : Except Failure CommandOutput

/-- The installed version, unless the command cannot be run or fails, or what it prints names none. -/
def installedIn : Except Failure CommandOutput → Option String
  | .ok output => if output.success then (Version.ofBuildInfo output.stdout).toOption else none
  | .error _ => none

/-- The published version, unless one of the requests fails or there is no tip. -/
def publishedIn (excluded : String) : Except Failure String → Except Failure (List Version.Tag) → Option String
  | .ok tip, .ok tags => Version.published? excluded tip tags
  | _, _ => none

/-- What the repository tells: the tags are asked for only if there is a tip. -/
def toldOfRepository (tip : Except Failure String) (tags : Except Failure (List Version.Tag)) : List Tiding :=
  .tip tip :: match tip with
    | .ok commit => if Version.isBlankTip commit then [] else [.tags tags]
    | .error _ => []

namespace Answers

variable (excluded : String) (a : Answers)

/-- The two versions, if both are available. -/
def versions? : Option Version.Pair := do
  return ⟨← installedIn a.build, ← publishedIn excluded a.tip a.tags⟩

/-- The versions that differ, if the tool is there. -/
def offered? : Option Version.Pair :=
  match a.path, a.versions? excluded with
  | some _, some v => if v.installed.toList.take 7 = v.published.toList.take 7 then none else some v
  | _, _ => none

/-- How the installation went. -/
def outcome : Tool.InstallOutcome := a.byHost.getD (.ofCommand a.install)

/-- What the check returns. -/
def verdict : Check :=
  match a.path, a.versions? excluded with
  | none, _ => .toolMissing
  | some _, none => .skipped
  | some _, some v =>
    if v.installed.toList.take 7 = v.published.toList.take 7 then .upToDate v
    else if a.choice ≠ some "Update Now" then .declined v
    else
      match a.outcome with
      | .installed => .updated v
      | .failed reason => .failed reason
      | .cancelled => .declined v

/-- What the check is told from the offer on. -/
def toldOfOffer : List Tiding :=
  match a.offered? excluded with
  | none => []
  | some _ =>
    .chosen a.choice :: if a.choice = some "Update Now" then
      .installed a.byHost :: if a.byHost = none then [.ran a.install] else []
    else []

/-- What the check was told: the path first, then both versions in any order, then what came of the offer. -/
def Told (l : List Tiding) : Prop :=
  match a.path with
  | none => l = [.located none]
  | some path => ∃ lookups : List Tiding, lookups.Perm (.ran a.build :: toldOfRepository a.tip a.tags) ∧
      l = .located (some path) :: (lookups ++ a.toldOfOffer excluded)

/-- What the host sees of an installation that the user has accepted. -/
def sightsOfUpdate (s : Service) : List Sight :=
  let title := "Updating " ++ s.tool ++ "..."
  .progressStarted title :: .installer :: (if a.byHost = none then [.installCommand] else []) ++
    (match a.outcome with
      | .installed =>
        [.notice .info (s.tool ++ " has been updated. Please restart the server to use the new version.")]
      | .failed _ => [.notice .error ("Failed to update " ++ s.tool ++ ". Check the output log.")]
      | .cancelled => []) ++ [.progressFinished title]

/-- What the host sees. -/
def sights (s : Service) : List Sight :=
  match a.offered? s.excludedTagStart with
  | none => []
  | some v =>
    .prompt .info ("A new version (" ++ String.ofList (v.published.toList.take 7) ++ ") of " ++ s.tool ++
      " is available.") ["Update Now"] ::
      if a.choice = some "Update Now" then a.sightsOfUpdate s else []

end Answers

end Update

/-! ## What was told decides -/

def Tiding.ran? : Tiding → Option (Except Failure CommandOutput)
  | .ran result => some result
  | _ => none

namespace Update.Answers

variable {excluded path : String} {a b : Answers} {l : List Tiding}

theorem verdict_of_offered {v : Version.Pair} (h : a.offered? excluded = some v) :
    a.verdict excluded = if a.choice ≠ some "Update Now" then .declined v else
      match a.outcome with
      | .installed => .updated v
      | .failed reason => .failed reason
      | .cancelled => .declined v := by
  unfold offered? at h
  split at h
  · rename_i path v' hpath hversions
    split at h
    · cases h
    · rename_i hdiffer
      cases h
      simp only [verdict, hpath, hversions, if_neg hdiffer]
  · cases h

theorem verdict_of_not_offered (h : a.offered? excluded = none) :
    a.verdict excluded = match a.path, a.versions? excluded with
      | none, _ => .toolMissing
      | some _, none => .skipped
      | some _, some v => .upToDate v := by
  unfold offered? at h
  unfold verdict
  cases hpath : a.path with
  | none => rfl
  | some path =>
    cases hversions : a.versions? excluded with
    | none => rfl
    | some v =>
      rw [hpath, hversions] at h
      dsimp only at h ⊢
      split at h
      · rename_i hsame
        rw [if_pos hsame]
      · cases h

theorem mem_toldOfRepository {tip : Except Failure String} {tags : Except Failure (List Version.Tag)} {t : Tiding} :
    t ∈ toldOfRepository tip tags ↔
      t = .tip tip ∨ (∃ commit, tip = .ok commit ∧ Version.isBlankTip commit = false) ∧ t = .tags tags := by
  unfold toldOfRepository
  split
  · split <;> simp [*]
  · simp

theorem mem_toldOfOffer {t : Tiding} :
    t ∈ a.toldOfOffer excluded ↔ a.offered? excluded ≠ none ∧ (t = .chosen a.choice ∨
      a.choice = some "Update Now" ∧ (t = .installed a.byHost ∨ a.byHost = none ∧ t = .ran a.install)) := by
  unfold toldOfOffer
  split
  · simp [*]
  · split
    · split <;> simp [*]
    · simp [*]

theorem Told.mem_iff (h : a.Told excluded l) (hpath : a.path = some path) (t : Tiding) :
    t ∈ l ↔ t = .located (some path) ∨ (t = .ran a.build ∨ t ∈ toldOfRepository a.tip a.tags) ∨
      t ∈ a.toldOfOffer excluded := by
  rw [Told, hpath] at h
  obtain ⟨lookups, hperm, rfl⟩ := h
  rw [List.mem_cons, List.mem_append, hperm.mem_iff, List.mem_cons]

theorem Told.tip_mem_iff (h : a.Told excluded l) (hpath : a.path = some path) {tip : Except Failure String} :
    .tip tip ∈ l ↔ tip = a.tip := by
  simp [h.mem_iff hpath, mem_toldOfRepository, mem_toldOfOffer]

theorem Told.tags_mem_iff (h : a.Told excluded l) (hpath : a.path = some path)
    {tags : Except Failure (List Version.Tag)} :
    .tags tags ∈ l ↔ (∃ commit, a.tip = .ok commit ∧ Version.isBlankTip commit = false) ∧ tags = a.tags := by
  simp [h.mem_iff hpath, mem_toldOfRepository, mem_toldOfOffer]

theorem Told.chosen_mem_iff (h : a.Told excluded l) (hpath : a.path = some path) {choice : Option String} :
    .chosen choice ∈ l ↔ a.offered? excluded ≠ none ∧ choice = a.choice := by
  simp [h.mem_iff hpath, mem_toldOfRepository, mem_toldOfOffer]

theorem Told.installed_mem_iff (h : a.Told excluded l) (hpath : a.path = some path)
    {byHost : Option Tool.InstallOutcome} :
    .installed byHost ∈ l ↔
      a.offered? excluded ≠ none ∧ a.choice = some "Update Now" ∧ byHost = a.byHost := by
  simp [h.mem_iff hpath, mem_toldOfRepository, mem_toldOfOffer]

/-- The first command that is run tells the installed version. -/
theorem Told.rans (h : a.Told excluded l) (hpath : a.path = some path) :
    l.filterMap Tiding.ran? = a.build :: (a.toldOfOffer excluded).filterMap Tiding.ran? := by
  rw [Told, hpath] at h
  obtain ⟨lookups, hperm, rfl⟩ := h
  have hrepository : (toldOfRepository a.tip a.tags).filterMap Tiding.ran? = [] := by
    unfold toldOfRepository
    split
    · split <;> rfl
    · rfl
  have hlookups : (lookups.filterMap Tiding.ran?).Perm [a.build] := by
    rw [← hrepository]
    exact hperm.filterMap Tiding.ran?
  rw [List.filterMap_cons_none rfl, List.filterMap_append, hlookups.eq_singleton, List.singleton_append]

theorem Told.path_eq (ha : a.Told excluded l) (hb : b.Told excluded l) : a.path = b.path := by
  have head : ∀ {a : Answers}, a.Told excluded l → l.head? = some (.located a.path) := by
    intro a ha
    unfold Told at ha
    split at ha
    · rename_i hpath
      rw [ha, hpath]
      rfl
    · rename_i path hpath
      obtain ⟨lookups, -, rfl⟩ := ha
      rw [hpath]
      rfl
  have hlocated := Option.some.inj ((head ha).symm.trans (head hb))
  injection hlocated

section Unique

variable (ha : a.Told excluded l) (hb : b.Told excluded l) (hpath : a.path = some path)

include ha hb hpath

theorem Told.versions_eq : a.versions? excluded = b.versions? excluded := by
  have hpath' : b.path = some path := (ha.path_eq hb).symm.trans hpath
  have hbuild : a.build = b.build := (List.cons.inj ((ha.rans hpath).symm.trans (hb.rans hpath'))).1
  have htip : a.tip = b.tip := (hb.tip_mem_iff hpath').1 ((ha.tip_mem_iff hpath).2 rfl)
  have hpublished : publishedIn excluded a.tip a.tags = publishedIn excluded b.tip b.tags := by
    rw [← htip]
    cases hcommit : a.tip with
    | error e => rfl
    | ok commit =>
      cases hblank : Version.isBlankTip commit with
      | true => cases a.tags <;> cases b.tags <;> simp [publishedIn, Version.published?, hblank]
      | false =>
        have htold := (ha.tags_mem_iff hpath).2 ⟨⟨commit, hcommit, hblank⟩, rfl⟩
        rw [((hb.tags_mem_iff hpath').1 htold).2]
  rw [versions?, versions?, hbuild, hpublished]

theorem Told.offered_eq : a.offered? excluded = b.offered? excluded := by
  rw [offered?, offered?, ha.versions_eq hb hpath, ha.path_eq hb]

theorem Told.choice_eq (hoffered : a.offered? excluded ≠ none) : a.choice = b.choice := by
  have hpath' : b.path = some path := (ha.path_eq hb).symm.trans hpath
  exact ((hb.chosen_mem_iff hpath').1 ((ha.chosen_mem_iff hpath).2 ⟨hoffered, rfl⟩)).2

theorem Told.byHost_eq (hoffered : a.offered? excluded ≠ none) (haccepted : a.choice = some "Update Now") :
    a.byHost = b.byHost := by
  have hpath' : b.path = some path := (ha.path_eq hb).symm.trans hpath
  exact ((hb.installed_mem_iff hpath').1 ((ha.installed_mem_iff hpath).2 ⟨hoffered, haccepted, rfl⟩)).2.2

theorem Told.outcome_eq (hoffered : a.offered? excluded ≠ none) (haccepted : a.choice = some "Update Now") :
    a.outcome = b.outcome := by
  have hbyHost := ha.byHost_eq hb hpath hoffered haccepted
  rw [outcome, outcome, ← hbyHost]
  cases hnone : a.byHost with
  | some o => rfl
  | none =>
    -- the second command that is run installs
    have hpath' : b.path = some path := (ha.path_eq hb).symm.trans hpath
    obtain ⟨v, hv⟩ := Option.ne_none_iff_exists'.1 hoffered
    have hrans := (List.cons.inj ((ha.rans hpath).symm.trans (hb.rans hpath'))).2
    simp only [toldOfOffer, hv, (ha.offered_eq hb hpath).symm.trans hv,
      (ha.choice_eq hb hpath hoffered).symm.trans haccepted, haccepted, hnone, hbyHost.symm.trans hnone,
      if_true] at hrans
    rw [(List.cons.inj (hrans : [a.install] = [b.install])).1]

end Unique

/-- **Whoever was told the same comes to the same verdict**, whatever else might have been asked. -/
theorem Told.unique {s : Service} (ha : a.Told s.excludedTagStart l) (hb : b.Told s.excludedTagStart l) :
    a.verdict s.excludedTagStart = b.verdict s.excludedTagStart ∧ a.sights s = b.sights s := by
  have hoffered : a.offered? s.excludedTagStart = b.offered? s.excludedTagStart := by
    cases hpath : a.path with
    | none => simp only [offered?, hpath, (ha.path_eq hb).symm.trans hpath]
    | some path => exact ha.offered_eq hb hpath
  cases hv : a.offered? s.excludedTagStart with
  | none =>
    have hv' := hoffered.symm.trans hv
    refine ⟨?_, by simp only [sights, hv, hv']⟩
    rw [verdict_of_not_offered hv, verdict_of_not_offered hv', ← ha.path_eq hb]
    cases hpath : a.path with
    | none => rfl
    | some path => rw [ha.versions_eq hb hpath]
  | some v =>
    have hv' := hoffered.symm.trans hv
    have hsome : a.offered? s.excludedTagStart ≠ none := by simp [hv]
    obtain ⟨path, hpath⟩ : ∃ path, a.path = some path := by
      unfold offered? at hv
      split at hv
      · exact ⟨_, by assumption⟩
      · cases hv
    rw [verdict_of_offered hv, verdict_of_offered hv', sights, sights, hv, hv', ← ha.choice_eq hb hpath hsome]
    by_cases haccepted : a.choice = some "Update Now"
    · rw [sightsOfUpdate, sightsOfUpdate, ha.outcome_eq hb hpath hsome haccepted,
        ha.byHost_eq hb hpath hsome haccepted]
      exact ⟨rfl, rfl⟩
    · simp only [ne_eq, haccepted, not_false_eq_true, if_true, if_false, and_self]

end Update.Answers

/-! ## The paths of a check -/

section Paths

open Program

variable {s : Service} {l : List Exchange}

theorem tidingsIn_append (l₁ l₂ : List Exchange) : tidingsIn (l₁ ++ l₂) = tidingsIn l₁ ++ tidingsIn l₂ :=
  List.filterMap_append

theorem sightsIn_append (s : Service) (l₁ l₂ : List Exchange) :
    sightsIn s (l₁ ++ l₂) = sightsIn s l₁ ++ sightsIn s l₂ :=
  List.filterMap_append

/-- The command that tells the version is not the one that installs. -/
theorem versionArgs_ne_installArgs (t : Tool.Toolchain) (path source : String) :
    t.versionArgs path ≠ t.installArgs source := by
  intro h
  have hlength := congrArg List.length h
  simp [Tool.Toolchain.versionArgs, Tool.Toolchain.installArgs] at hlength

theorem lookupInstalled_yields {path : String} {v : Option String}
    (h : (Version.lookupInstalled s.toolchain path).Yields l v) :
    ∃ build, v = Update.installedIn build ∧ tidingsIn l = [.ran build] ∧ sightsIn s l = [] := by
  obtain ⟨ticket, l', rfl, build, l'', rfl, h⟩ := h
  refine ⟨build, ?_⟩
  have unseen : sightsIn s [⟨.query (.command s.toolchain.program (s.toolchain.versionArgs path)), ticket⟩,
      ⟨.awaitCommand ticket, build⟩] = [] := by
    simp [sightsIn, Request.sight?, versionArgs_ne_installArgs]
  cases build with
  | error e =>
    obtain ⟨rfl, rfl⟩ := h
    exact ⟨rfl, rfl, unseen⟩
  | ok output =>
    dsimp only [Program.bind] at h
    rw [Update.installedIn]
    split at h
    all_goals
      obtain ⟨rfl, rfl⟩ := h
      exact ⟨by simp [*], rfl, unseen⟩

theorem lookupPublished_yields {excluded : String} {v : Option String}
    (h : (Version.lookupPublished excluded).Yields l v) :
    ∃ tip tags, v = Update.publishedIn excluded tip tags ∧
      tidingsIn l = Update.toldOfRepository tip tags ∧ sightsIn s l = [] := by
  obtain ⟨tip, l', rfl, h⟩ := h
  cases tip with
  | error e =>
    obtain ⟨rfl, rfl⟩ := h
    exact ⟨.error e, .ok [], rfl, rfl, rfl⟩
  | ok tip =>
    dsimp only [Program.bind] at h
    split at h
    · rename_i hblank
      obtain ⟨rfl, rfl⟩ := h
      refine ⟨.ok tip, .ok [], ?_, ?_, rfl⟩
      · simp [Update.publishedIn, Version.published?, hblank]
      · simp [Update.toldOfRepository, hblank, tidingsIn, Request.tiding?]
    · rename_i hblank
      obtain ⟨tags, l'', rfl, h⟩ := h
      refine ⟨.ok tip, tags, ?_⟩
      cases tags with
      | error e =>
        obtain ⟨rfl, rfl⟩ := h
        refine ⟨rfl, ?_, rfl⟩
        simp [Update.toldOfRepository, hblank, tidingsIn, Request.tiding?]
      | ok tags =>
        obtain ⟨rfl, rfl⟩ := h
        refine ⟨?_, ?_, rfl⟩
        · simp [Update.publishedIn, Version.published?, hblank]
        · simp [Update.toldOfRepository, hblank, tidingsIn, Request.tiding?]

/-- An installation that nobody is asked about: by the host or else by the install command. -/
theorem installUnprompted_yields {o : Tool.InstallOutcome} (h : (Tool.installUnprompted s).Yields l o) :
    ∃ byHost install, o = byHost.getD (.ofCommand install) ∧
      tidingsIn l = .installed byHost :: (if byHost = none then [.ran install] else []) ∧
      sightsIn s l = .installer :: (if byHost = none then [.installCommand] else []) := by
  obtain ⟨byHost, l', rfl, h⟩ := h
  cases byHost with
  | some outcome =>
    obtain ⟨rfl, rfl⟩ := h
    exact ⟨some o, .ok {}, rfl, rfl, rfl⟩
  | none =>
    obtain ⟨ticket, l₁, rfl, install, l₂, rfl, h⟩ := h
    refine ⟨none, install, ?_⟩
    have seen : sightsIn s [⟨.query (.hostInstall false), none⟩,
        ⟨.query (.command s.toolchain.program (s.toolchain.installArgs s.identity.source)), ticket⟩,
        ⟨.awaitCommand ticket, install⟩] = [.installer, .installCommand] := by
      simp [sightsIn, Request.sight?]
    cases install with
    | error e =>
      obtain ⟨rfl, rfl⟩ := h
      exact ⟨rfl, rfl, seen⟩
    | ok output =>
      dsimp only [Program.bind] at h
      rw [Option.getD_none, Tool.InstallOutcome.ofCommand]
      split at h
      all_goals
        obtain ⟨rfl, rfl⟩ := h
        exact ⟨by simp [*], rfl, seen⟩

open Update in
/-- An update that the user has accepted. -/
theorem runUpdate_yields (a₀ : Answers) {o : Tool.InstallOutcome} (h : (runUpdate s).Yields l o) :
    ∃ a : Answers, a = { a₀ with byHost := a.byHost, install := a.install } ∧ o = a.outcome ∧
      tidingsIn l = .installed a.byHost :: (if a.byHost = none then [.ran a.install] else []) ∧
      sightsIn s l = a.sightsOfUpdate s := by
  obtain ⟨⟨⟩, l₁, rfl, hwrite⟩ := yields_ask.1 h
  obtain ⟨⟨⟩, l₂, rfl, hrun⟩ := yields_ask.1 hwrite
  obtain ⟨l₃, l₄, outcome, rfl, hinstall, hreport⟩ := yields_bind.1 hrun
  obtain ⟨byHost, install, rfl, htold, hseen⟩ := installUnprompted_yields hinstall
  -- what is left only says how it went
  have rest : o = byHost.getD (.ofCommand install) ∧ tidingsIn l₄ = [] ∧ sightsIn s l₄ =
      (match byHost.getD (.ofCommand install) with
        | .installed =>
          [.notice .info (s.tool ++ " has been updated. Please restart the server to use the new version.")]
        | .failed _ => [.notice .error ("Failed to update " ++ s.tool ++ ". Check the output log.")]
        | .cancelled => []) ++ [.progressFinished ("Updating " ++ s.tool ++ "...")] := by
    generalize byHost.getD (.ofCommand install) = outcome at hreport
    cases outcome with
    | installed =>
      obtain ⟨⟨⟩, l₅, rfl, ⟨⟩, l₆, rfl, ⟨⟩, l₇, rfl, rfl, rfl⟩ := hreport
      exact ⟨rfl, rfl, rfl⟩
    | failed reason =>
      obtain ⟨⟨⟩, l₅, rfl, ⟨⟩, l₆, rfl, ⟨⟩, l₇, rfl, rfl, rfl⟩ := hreport
      exact ⟨rfl, rfl, rfl⟩
    | cancelled =>
      obtain ⟨⟨⟩, l₅, rfl, rfl, rfl⟩ := hreport
      exact ⟨rfl, rfl, rfl⟩
  obtain ⟨rfl, htoldRest, hseenRest⟩ := rest
  refine ⟨{ a₀ with byHost := byHost, install := install }, rfl, rfl, ?_, ?_⟩
  · show tidingsIn (l₃ ++ l₄) = _
    rw [tidingsIn_append, htold, htoldRest, List.append_nil]
  · show .progressStarted _ :: sightsIn s (l₃ ++ l₄) = _
    rw [sightsIn_append, hseen, hseenRest, Answers.sightsOfUpdate, Answers.outcome]
    simp only [List.cons_append, List.append_assoc]

open Update in
/-- The offer of an update. -/
theorem offer_yields (a₀ : Answers) {v : Version.Pair} {c : Check}
    (hv : a₀.offered? s.excludedTagStart = some v) (h : (offer s v).Yields l c) :
    ∃ a : Answers, a = { a₀ with choice := a.choice, byHost := a.byHost, install := a.install } ∧
      c = a.verdict s.excludedTagStart ∧ tidingsIn l = a.toldOfOffer s.excludedTagStart ∧
      sightsIn s l = a.sights s := by
  obtain ⟨⟨⟩, l₁, rfl, hprompt⟩ := yields_ask.1 h
  obtain ⟨ticket, l₂, rfl, choice, l₃, rfl, hchoice⟩ := hprompt
  dsimp only [Program.bind] at hchoice
  by_cases haccepted : choice = some "Update Now"
  · rw [if_neg (by simp [haccepted, updateChoice])] at hchoice
    obtain ⟨l₄, l₅, outcome, rfl, hupdate, hend⟩ := yields_bind.1 hchoice
    obtain ⟨a, ha, rfl, htold, hseen⟩ := runUpdate_yields { a₀ with choice := choice } hupdate
    have hoffered : a.offered? s.excludedTagStart = some v := by
      rw [ha]
      exact hv
    have haccepted' : a.choice = some "Update Now" := by rw [ha, haccepted]
    obtain ⟨rfl, rfl⟩ : l₅ = [] ∧ c = a.verdict s.excludedTagStart := by
      rw [Answers.verdict_of_offered hoffered, if_neg (not_not_intro haccepted')]
      cases houtcome : a.outcome <;>
      · rw [houtcome] at hend
        exact hend
    refine ⟨a, by rw [ha], rfl, ?_, ?_⟩
    · show .chosen choice :: tidingsIn (l₄ ++ []) = _
      rw [List.append_nil, htold, Answers.toldOfOffer, hoffered, haccepted', haccepted]
      rfl
    · show .prompt .info _ _ :: sightsIn s (l₄ ++ []) = _
      rw [List.append_nil, hseen, Answers.sights, hoffered, haccepted']
      rfl
  · rw [if_pos (by simpa [updateChoice] using haccepted)] at hchoice
    obtain ⟨rfl, rfl⟩ := hchoice
    have hoffered : Answers.offered? s.excludedTagStart { a₀ with choice := choice } = some v := hv
    refine ⟨{ a₀ with choice := choice }, rfl, ?_, ?_, ?_⟩
    · rw [Answers.verdict_of_offered hoffered, if_pos haccepted]
    · simp only [Answers.toldOfOffer, hoffered, if_neg haccepted]
      rfl
    · simp only [Answers.sights, hoffered, if_neg haccepted]
      rfl

theorem Version.Pair.updateAvailable_iff (p : Version.Pair) :
    p.updateAvailable = true ↔ p.installed.toList.take 7 ≠ p.published.toList.take 7 := by
  rw [updateAvailable, upToDate, Bool.not_eq_true', ← Bool.not_eq_true, sameShort_iff]
  rfl

open Update in
/-- What comes of the two versions. -/
theorem compared_yields (a₀ : Answers) {path : String} {c : Check} (hpath : a₀.path = some path)
    (h : Yields (match a₀.versions? s.excludedTagStart with
      | some v =>
        if v.updateAvailable then offer s v
        else do
          write .extension .info "[UpdateCheck] Tool is up to date."
          return .upToDate v
      | none => return .skipped) l c) :
    ∃ a : Answers, a = { a₀ with choice := a.choice, byHost := a.byHost, install := a.install } ∧
      c = a.verdict s.excludedTagStart ∧ tidingsIn l = a.toldOfOffer s.excludedTagStart ∧
      sightsIn s l = a.sights s := by
  -- unless something is offered, nothing else is asked and nothing is seen
  have silent : a₀.offered? s.excludedTagStart = none →
      c = a₀.verdict s.excludedTagStart ∧ tidingsIn l = [] ∧ sightsIn s l = [] →
      ∃ a : Answers, a = { a₀ with choice := a.choice, byHost := a.byHost, install := a.install } ∧
        c = a.verdict s.excludedTagStart ∧ tidingsIn l = a.toldOfOffer s.excludedTagStart ∧
        sightsIn s l = a.sights s := by
    rintro hoffered ⟨rfl, htold, hseen⟩
    exact ⟨a₀, rfl, rfl, by simp only [Answers.toldOfOffer, hoffered, htold],
      by simp only [Answers.sights, hoffered, hseen]⟩
  cases hversions : a₀.versions? s.excludedTagStart with
  | none =>
    rw [hversions] at h
    obtain ⟨rfl, rfl⟩ := h
    refine silent ?_ ⟨?_, rfl, rfl⟩
    · simp only [Answers.offered?, hpath, hversions]
    · simp only [Answers.verdict, hpath, hversions]
  | some v =>
    rw [hversions] at h
    dsimp only at h
    by_cases hsame : v.installed.toList.take 7 = v.published.toList.take 7
    · rw [if_neg fun hv => v.updateAvailable_iff.1 hv hsame] at h
      obtain ⟨⟨⟩, l', rfl, rfl, rfl⟩ := h
      refine silent ?_ ⟨?_, rfl, rfl⟩
      · simp only [Answers.offered?, hpath, hversions, if_pos hsame]
      · simp only [Answers.verdict, hpath, hversions, if_pos hsame]
    · rw [if_pos (v.updateAvailable_iff.2 hsame)] at h
      have hoffered : a₀.offered? s.excludedTagStart = some v := by
        simp only [Answers.offered?, hpath, hversions, if_neg hsame]
      exact offer_yields a₀ hoffered h

open Update in
/-- **What a check returns is read off what it was told**, and so is what the host sees of it. -/
theorem check_yields {c : Check} (h : (check s).Yields l c) :
    ∃ a : Answers, a.Told s.excludedTagStart (tidingsIn l) ∧ c = a.verdict s.excludedTagStart ∧
      sightsIn s l = a.sights s := by
  obtain ⟨⟨⟩, l₁, rfl, hlocate⟩ := yields_ask.1 h
  obtain ⟨path, l₂, rfl, hpath⟩ := yields_ask.1 hlocate
  cases path with
  | none =>
    obtain ⟨⟨⟩, l₃, rfl, rfl, rfl⟩ := hpath
    exact ⟨⟨none, .ok {}, .ok "", .ok [], none, none, .ok {}⟩, rfl, rfl, rfl⟩
  | some path =>
    obtain ⟨l₃, l₄, ⟨installed, published⟩, rfl, hboth, hrest⟩ := yields_bind.1 hpath
    obtain ⟨l₅, l₆, hinstalled, hpublished, hperm⟩ := hboth.both
    obtain ⟨build, hbuild, htold, hseen⟩ := lookupInstalled_yields hinstalled
    obtain ⟨tip, tags, htip, htold', hseen'⟩ := lookupPublished_yields (s := s) hpublished
    obtain ⟨a, ha, rfl, htoldRest, hseenRest⟩ := compared_yields (s := s) (l := l₄) (c := c)
      ⟨some path, build, tip, tags, none, none, .ok {}⟩ rfl (by
        rw [Answers.versions?, ← hbuild, ← htip]
        cases installed <;> cases published <;> exact hrest)
    have htoldAll : (tidingsIn l₃).Perm (.ran build :: toldOfRepository tip tags) := by
      have hperm' := hperm.filterMap fun e => e.request.tiding? e.answer
      rwa [← tidingsIn, ← tidingsIn, tidingsIn_append, htold, htold'] at hperm'
    have hseenAll : sightsIn s l₃ = [] := by
      have hperm' := hperm.filterMap fun e => e.request.sight? s
      rw [← sightsIn, ← sightsIn, sightsIn_append, hseen, hseen'] at hperm'
      exact hperm'.eq_nil
    refine ⟨a, ?_, rfl, ?_⟩
    · rw [ha]
      refine ⟨tidingsIn l₃, htoldAll, ?_⟩
      show .located (some path) :: tidingsIn (l₃ ++ l₄) = _
      rw [tidingsIn_append, htoldRest, ← ha]
    · show sightsIn s (l₃ ++ l₄) = _
      rw [sightsIn_append, hseenAll, hseenRest, List.nil_append]

end Paths

/-! ## Checks in a run -/

section Courses

variable {ε : Type} {env : Environment ε} {s : Service} {acts₀ : List Act} {w₀ w : World ε}
  {past : List (Episode ε)}

/-- A check that has not returned takes its next step, unless it waits for a command or for the user. -/
theorem Course.check_goes_on (h₀ : Run env s acts₀ w₀)
    (h : Course env s (w₀.called s .checkForUpdates) past w) (hres : w.result? w₀.tasks.length = none) :
    (w.attempt env s.roles w₀.tasks.length).isSome = true ∨
    (∃ ticket k, w.pending w₀.tasks.length = some ⟨.awaitCommand ticket, k⟩ ∧
      env.result? w.outside ticket = none) ∨
    ∃ ticket k, w.pending w₀.tasks.length = some ⟨.awaitPrompt ticket, k⟩ ∧
      env.reply? w.outside ticket = none := by
  obtain ⟨p, -, hkeep⟩ := h.proceeds h₀
  refine (hkeep.goes_on hres).imp_right fun hwait => ?_
  obtain ⟨r, k, hp, hwaits, hnone⟩ := hwait
  have hused := (h.run_of_call h₀).kind_of_pending (h₀.role_of_call .checkForUpdates _) hp
  cases r with
  | awaitCommand ticket => exact .inl ⟨ticket, k, hp, Option.map_eq_none_iff.1 hnone⟩
  | awaitPrompt ticket =>
    refine .inr ⟨ticket, k, hp, ?_⟩
    cases hreply : env.reply? w.outside ticket with
    | none => rfl
    | some choice => simp [World.perform, hreply] at hnone
  | nextEvent | awaitExit | awaitCheck => cases hused
  | _ => cases hwaits

/-- What a check has returned and what the host has seen is what the answers come to. -/
theorem Course.told_of_check (h₀ : Run env s acts₀ w₀)
    (h : Course env s (w₀.called s .checkForUpdates) past w) {o : Outcome}
    (ho : w.result? w₀.tasks.length = some o) :
    ∃ a : Update.Answers, a.Told s.excludedTagStart (tidingsIn (exchanges w₀.tasks.length (actsOf past))) ∧
      o = .check (some (a.verdict s.excludedTagStart)) ∧
      sightsIn s (exchanges w₀.tasks.length (actsOf past)) = a.sights s := by
  obtain ⟨c, hcheck, rfl⟩ := Program.yields_map.1 (h.yields h₀ ho)
  obtain ⟨a, ha, rfl, hseen⟩ := check_yields hcheck
  exact ⟨a, ha, rfl, hseen⟩

/-- **What comes of an update check.** Take a check in any run, with anything else going on.

* Once it has returned, the answers to what it has asked are complete, and they alone decide what it has returned
  and what the host has seen, in whatever order the two versions were looked up.
* Until then it takes its next step whenever it is its turn, unless it waits for a command or for the user.
* It puts at most 17 requests. -/
theorem Course.check_verdict (h₀ : Run env s acts₀ w₀)
    (h : Course env s (w₀.called s .checkForUpdates) past w) :
    (∀ o, w.result? w₀.tasks.length = some o →
      (∃ a : Update.Answers,
        a.Told s.excludedTagStart (tidingsIn (exchanges w₀.tasks.length (actsOf past)))) ∧
      ∀ a : Update.Answers,
        a.Told s.excludedTagStart (tidingsIn (exchanges w₀.tasks.length (actsOf past))) →
        o = .check (some (a.verdict s.excludedTagStart)) ∧
        sightsIn s (exchanges w₀.tasks.length (actsOf past)) = a.sights s) ∧
    (w.result? w₀.tasks.length = none →
      (w.attempt env s.roles w₀.tasks.length).isSome = true ∨
      (∃ ticket k, w.pending w₀.tasks.length = some ⟨.awaitCommand ticket, k⟩ ∧
        env.result? w.outside ticket = none) ∨
      ∃ ticket k, w.pending w₀.tasks.length = some ⟨.awaitPrompt ticket, k⟩ ∧
        env.reply? w.outside ticket = none) ∧
    (actsOf past).countP (·.task? == some w₀.tasks.length) ≤ 17 := by
  refine ⟨fun o ho => ?_, fun hres => h.check_goes_on h₀ hres, h.steps_le h₀ (checkForUpdates_endsIn s)⟩
  obtain ⟨b, hb, rfl, hseen⟩ := h.told_of_check h₀ ho
  refine ⟨⟨b, hb⟩, fun a ha => ?_⟩
  obtain ⟨hverdict, hsights⟩ := ha.unique hb
  rw [hverdict, hsights]
  exact ⟨rfl, hseen⟩

end Courses

namespace Rehearsal

/-- An update that the user accepts and that the install command does not manage. -/
def outdated : Script where
  answers := [.choice (some "Update Now")]
  installResults := [.ok { exitCode := some 1, stderr := "no space left" }]

def updated : List (Move Script) := List.replicate 18 (.step 0)

end Rehearsal

/-- An accepted update that fails: one prompt, and the installation between the two ends of the progress. -/
theorem check_verdict_of_failure : ∃ past w, ∃ a : Update.Answers,
    Course Rehearsal.Script.environment Rehearsal.sample
      ((Rehearsal.scene Rehearsal.outdated []).2.called Rehearsal.sample .checkForUpdates) past w ∧
    w.result? 0 = some (.check (some (.failed "Install error: exit code 1: no space left"))) ∧
    a.verdict Rehearsal.sample.excludedTagStart = .failed "Install error: exit code 1: no space left" ∧
    a.sights Rehearsal.sample =
      [.prompt .info "A new version (feedfac) of tool is available." ["Update Now"],
        .progressStarted "Updating tool...", .installer, .installCommand,
        .notice .error "Failed to update tool. Check the output log.",
        .progressFinished "Updating tool..."] := by
  have hcourse := Rehearsal.course_sequel (Rehearsal.scene Rehearsal.outdated []).2 .checkForUpdates
    Rehearsal.updated
  have hresult : (Rehearsal.sequel (Rehearsal.scene Rehearsal.outdated []).2 .checkForUpdates
      Rehearsal.updated).2.result? 0 =
        some (.check (some (.failed "Install error: exit code 1: no space left"))) := by
    decide +kernel
  obtain ⟨hend, -, -⟩ := Course.check_verdict (Rehearsal.run_scene Rehearsal.outdated []) hcourse
  obtain ⟨⟨a, ha⟩, hall⟩ := hend _ hresult
  obtain ⟨hverdict, hsights⟩ := hall a ha
  injection hverdict with hsome
  injection hsome with hverdict
  refine ⟨_, _, a, hcourse, hresult, hverdict.symm, hsights.symm.trans ?_⟩
  decide +kernel

end Steward
