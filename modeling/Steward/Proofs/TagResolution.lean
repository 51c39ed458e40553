import Steward.Proofs.Release

/-!
# The version that a tag gives

Semantic versions have a grammar (`Version.Semantic.IsVersion`), and the parser accepts just what it allows
(`Version.Semantic.isSome_parse_iff`). A tag names a version if, apart from blanks around it and a run of `=` and
`v` in front, it is one (`Version.clean_eq_some_iff`); nothing of it is changed, so cleaning twice is cleaning
once.

The published version is that of the first tag which is eligible, and the tip if no tag is. All others may be
left out, put in or moved about (`Version.resolve_first_eligible`).
-/

set_option autoImplicit false

namespace Steward

namespace Text

/-- Parts without the separator come apart again where they were joined. -/
theorem splitAll_of_joined {sep : Char} {part : List Char} {parts : List (List Char)} (hpart : sep ∉ part)
    (hparts : ∀ p ∈ parts, sep ∉ p) : splitAll sep (part ++ parts.flatMap (sep :: ·)) = part :: parts := by
  induction parts generalizing part with
  | nil =>
    induction part with
    | nil => rfl
    | cons c part ih =>
      rw [List.mem_cons, not_or] at hpart
      have hrest := ih hpart.2
      rw [List.cons_append, splitAll, hrest, if_neg (by simpa using Ne.symm hpart.1)]
  | cons next parts ih =>
    have hnext := ih (hparts next List.mem_cons_self) fun p hp => hparts p (List.mem_cons_of_mem next hp)
    induction part with
    | nil => simp [splitAll, hnext]
    | cons c part ih =>
      rw [List.mem_cons, not_or] at hpart
      have hrest := ih hpart.2
      rw [List.cons_append, splitAll, hrest, if_neg (by simpa using Ne.symm hpart.1)]

end Text

/-! ## The grammar of versions -/

namespace Version.Semantic

open Text

/-- Digits without a superfluous zero in front, for a number that fits into 64 bits. -/
structure IsNumber (cs : List Char) : Prop where
  ne_nil : cs ≠ []
  digits : ∀ c ∈ cs, c.isDigit = true
  leading : cs.head? = some '0' → cs = ['0']
  bounded : Nat.ofDigitChars 10 cs 0 ≤ maxU64

/-- Letters, digits and hyphens. -/
structure IsBuildId (cs : List Char) : Prop where
  ne_nil : cs ≠ []
  chars : ∀ c ∈ cs, c.isAlphanum = true ∨ c = '-'

/-- The same for a pre-release: if it is a number it has no superfluous zero in front. -/
structure IsPreId (cs : List Char) : Prop extends IsBuildId cs where
  leading : (∀ c ∈ cs, c.isDigit = true) → cs.head? = some '0' → cs = ['0']

/-- `major.minor.patch`, then perhaps `-` and identifiers, then perhaps `+` and identifiers, all set apart by
dots. -/
def IsVersion (cs : List Char) : Prop :=
  ∃ major minor patch : List Char, ∃ pre build : List (List Char),
    IsNumber major ∧ IsNumber minor ∧ IsNumber patch ∧ (∀ id ∈ pre, IsPreId id) ∧ (∀ id ∈ build, IsBuildId id) ∧
      cs = major ++ '.' :: minor ++ '.' :: patch ++ renderIdentifiers '-' pre ++ renderIdentifiers '+' build

/-! ### Numbers -/

theorem component?_of_isNumber {cs : List Char} (h : IsNumber cs) :
    component? cs = some (Nat.ofDigitChars 10 cs 0) := by
  unfold component?
  split
  · exact absurd (h.leading rfl) (by simp)
  · rw [decimal?_of_isDigit h.ne_nil h.digits]
    exact if_pos h.bounded

theorem isNumber_of_component? {cs : List Char} {n : Nat} (h : component? cs = some n) : IsNumber cs := by
  have hdigits := component?_eq h
  refine ⟨?_, ?_, ?_, ?_⟩
  · rw [← hdigits]
    exact Nat.toDigits_ne_nil
  · rw [← hdigits]
    exact fun c hc => Nat.isDigit_of_mem_toDigits (by decide) (by decide) hc
  · intro hhead
    unfold component? at h
    split at h
    · cases h
    · rename_i hno
      cases cs with
      | nil => cases hhead
      | cons c cs =>
        obtain rfl := Option.some.inj hhead
        cases cs with
        | nil => rfl
        | cons d cs => exact absurd rfl (hno d cs)
  · unfold component? at h
    split at h
    · cases h
    · split at h
      · rename_i m hm
        split at h
        · rename_i hle
          rw [← hdigits, Nat.ofDigitChars_ten_toDigits]
          obtain rfl := Option.some.inj h
          exact hle
        · cases h
      · cases h

/-! ### Identifiers -/

theorem isBuildIdentifier_iff (cs : List Char) : isBuildIdentifier cs = true ↔ IsBuildId cs := by
  simp only [isBuildIdentifier, isIdentifierChar, Bool.and_eq_true, Bool.not_eq_true', List.isEmpty_eq_false_iff,
    List.all_eq_true, Bool.or_eq_true, beq_iff_eq]
  exact ⟨fun h => ⟨h.1, h.2⟩, fun h => ⟨h.ne_nil, h.chars⟩⟩

theorem isPreIdentifier_iff (cs : List Char) : isPreIdentifier cs = true ↔ IsPreId cs := by
  unfold isPreIdentifier
  rw [Bool.and_eq_true, isBuildIdentifier_iff]
  constructor
  · rintro ⟨hid, hzero⟩
    refine ⟨hid, fun hdigits hhead => ?_⟩
    cases cs with
    | nil => cases hhead
    | cons c cs =>
      obtain rfl := Option.some.inj hhead
      cases cs with
      | nil => rfl
      | cons d cs =>
        -- a longer run of digits behind a zero is what is refused
        have hrefused : (!('0' :: d :: cs).all fun c => (digit? c).isSome) = true := hzero
        rw [Bool.not_eq_true', List.all_eq_false] at hrefused
        obtain ⟨e, he, hno⟩ := hrefused
        rw [digit?_isSome] at hno
        exact absurd (hdigits e he) hno
  · intro h
    refine ⟨h.toIsBuildId, ?_⟩
    split
    · rename_i d cs
      rw [Bool.not_eq_true', List.all_eq_false]
      by_contra hall
      have hdigits : ∀ c ∈ '0' :: d :: cs, c.isDigit = true := by
        intro c hc
        by_contra hno
        exact hall ⟨c, hc, by rw [digit?_isSome]; exact hno⟩
      exact absurd (h.leading hdigits rfl) (by simp)
    · rfl

theorem IsBuildId.not_mem {cs : List Char} (h : IsBuildId cs) {c : Char} (hc : c.isAlphanum = false)
    (hne : c ≠ '-') : c ∉ cs := by
  intro hmem
  rcases h.chars c hmem with halpha | heq
  · rw [hc] at halpha
    cases halpha
  · exact hne heq

/-- What stands behind the mark. -/
def joined : List (List Char) → Option (List Char)
  | [] => none
  | id :: ids => some (id ++ ids.flatMap ('.' :: ·))

theorem renderIdentifiers_eq (mark : Char) (ids : List (List Char)) :
    renderIdentifiers mark ids = marked mark (joined ids) := by
  cases ids <;> rfl

theorem identifiers?_joined {ok : List Char → Bool} {ids : List (List Char)}
    (hok : ∀ id ∈ ids, ok id = true ∧ '.' ∉ id) : identifiers? ok (joined ids) = some ids := by
  cases ids with
  | nil => rfl
  | cons id ids =>
    have hsplit : splitAll '.' (id ++ ids.flatMap ('.' :: ·)) = id :: ids :=
      splitAll_of_joined (hok id List.mem_cons_self).2 fun p hp => (hok p (List.mem_cons_of_mem id hp)).2
    have hall : (id :: ids).all ok = true := List.all_eq_true.2 fun p hp => (hok p hp).1
    simp only [joined, identifiers?, hsplit, hall, if_true]

theorem all_of_identifiers? {ok : List Char → Bool} {part : Option (List Char)} {ids : List (List Char)}
    (h : identifiers? ok part = some ids) : ∀ id ∈ ids, ok id = true := by
  cases part with
  | none =>
    cases h
    exact List.forall_mem_nil _
  | some cs =>
    simp only [identifiers?] at h
    split at h
    · rename_i hall
      obtain rfl := Option.some.inj h
      exact List.all_eq_true.1 hall
    · cases h

theorem cutFirst_marked {sep : Char} {front : List Char} (h : sep ∉ front) (rest : Option (List Char)) :
    cutFirst sep (front ++ marked sep rest) = (front, rest) := by
  have hpass : ∀ c ∈ front, (c != sep) = true := by
    intro c hc
    rw [bne_iff_ne]
    rintro rfl
    exact h hc
  unfold cutFirst
  rw [List.dropWhile_append_of_pos hpass]
  cases rest with
  | none => simp [marked]
  | some cs => simp [marked, List.takeWhile_append_of_pos hpass]

/-! ### Versions -/

theorem isVersion_of_parse {cs : List Char} {v : Semantic} (h : parse cs = some v) : IsVersion cs := by
  obtain ⟨hwritten, -⟩ := render_of_parse h
  obtain ⟨front, build, core, pre, a, b, c, -, -, -, hmajor, hminor, hpatch, hpreIds, hbuildIds⟩ := parse_cases h
  refine ⟨a, b, c, v.pre, v.build, isNumber_of_component? hmajor, isNumber_of_component? hminor,
    isNumber_of_component? hpatch, ?_, ?_, ?_⟩
  · exact fun id hid => (isPreIdentifier_iff id).1 (all_of_identifiers? hpreIds id hid)
  · exact fun id hid => (isBuildIdentifier_iff id).1 (all_of_identifiers? hbuildIds id hid)
  · rw [← hwritten, render, component?_eq hmajor, component?_eq hminor, component?_eq hpatch]

theorem isSome_parse_of_isVersion {cs : List Char} (h : IsVersion cs) : (parse cs).isSome = true := by
  obtain ⟨major, minor, patch, pre, build, hmajor, hminor, hpatch, hpre, hbuild, rfl⟩ := h
  have apart : ∀ {n : List Char} {c : Char}, IsNumber n → c.isDigit = false → c ∉ n := by
    intro n c hn hc hmem
    rw [hn.digits c hmem] at hc
    cases hc
  have hplus : '+' ∉ major ++ '.' :: minor ++ '.' :: patch ++ renderIdentifiers '-' pre := by
    have hids : '+' ∉ renderIdentifiers '-' pre := by
      cases pre with
      | nil => exact List.not_mem_nil
      | cons id ids =>
        have hno : ∀ p ∈ id :: ids, '+' ∉ p := fun p hp => (hpre p hp).not_mem rfl (by decide)
        simp only [renderIdentifiers, List.cons_append, List.mem_cons, List.mem_append, List.mem_flatMap, not_or,
          not_exists, not_and]
        refine ⟨by decide, hno id List.mem_cons_self, fun p hp => ⟨by decide, ?_⟩⟩
        exact hno p (List.mem_cons_of_mem id hp)
    simp only [List.mem_append, List.mem_cons, not_or]
    exact ⟨⟨⟨apart hmajor rfl, by decide, apart hminor rfl⟩, by decide, apart hpatch rfl⟩, hids⟩
  have hhyphen : '-' ∉ major ++ '.' :: minor ++ '.' :: patch := by
    simp only [List.mem_append, List.mem_cons, not_or]
    exact ⟨⟨apart hmajor rfl, by decide, apart hminor rfl⟩, by decide, apart hpatch rfl⟩
  have hsplit : splitAll '.' (major ++ '.' :: minor ++ '.' :: patch) = [major, minor, patch] := by
    have hjoined : splitAll '.' (major ++ [minor, patch].flatMap ('.' :: ·)) = [major, minor, patch] :=
      splitAll_of_joined (apart hmajor rfl)
        (List.forall_mem_cons.2 ⟨apart hminor rfl, List.forall_mem_singleton.2 (apart hpatch rfl)⟩)
    simpa using hjoined
  have hpreIds : identifiers? isPreIdentifier (joined pre) = some pre :=
    identifiers?_joined fun id hid => ⟨(isPreIdentifier_iff id).2 (hpre id hid), (hpre id hid).not_mem rfl (by decide)⟩
  have hbuildIds : identifiers? isBuildIdentifier (joined build) = some build :=
    identifiers?_joined fun id hid =>
      ⟨(isBuildIdentifier_iff id).2 (hbuild id hid), (hbuild id hid).not_mem rfl (by decide)⟩
  unfold parse
  rw [renderIdentifiers_eq '+', cutFirst_marked hplus]
  simp only
  rw [renderIdentifiers_eq '-', cutFirst_marked hhyphen]
  simp only [hsplit, component?_of_isNumber hmajor, component?_of_isNumber hminor, component?_of_isNumber hpatch,
    hpreIds, hbuildIds]
  rfl

/-- **The parser accepts just what the grammar allows.** -/
theorem isSome_parse_iff (cs : List Char) : (parse cs).isSome = true ↔ IsVersion cs := by
  refine ⟨fun h => ?_, isSome_parse_of_isVersion⟩
  obtain ⟨v, hv⟩ := Option.isSome_iff_exists.1 h
  exact isVersion_of_parse hv

theorem IsVersion.parse_render {cs : List Char} (h : IsVersion cs) :
    ∃ v, parse cs = some v ∧ v.render = cs := by
  obtain ⟨v, hv⟩ := Option.isSome_iff_exists.1 (isSome_parse_of_isVersion h)
  exact ⟨v, hv, (render_of_parse hv).1⟩

theorem IsVersion.not_blank {cs : List Char} (h : IsVersion cs) : ∀ c ∈ cs, isBlank c = false := by
  obtain ⟨v, hv, -⟩ := h.parse_render
  exact (render_of_parse hv).2

end Version.Semantic

/-! ## The names of tags -/

namespace Text

theorem exists_dropEndWhile (p : Char → Bool) (cs : List Char) :
    ∃ ds, cs = dropEndWhile p cs ++ ds ∧ ∀ c ∈ ds, p c = true := by
  induction cs with
  | nil => exact ⟨[], rfl, List.forall_mem_nil _⟩
  | cons c cs ih =>
    obtain ⟨ds, hcs, hds⟩ := ih
    rw [dropEndWhile]
    cases hrest : dropEndWhile p cs with
    | cons d rest =>
      rw [hrest] at hcs
      exact ⟨ds, by rw [hcs, List.cons_append, List.cons_append, List.cons_append], hds⟩
    | nil =>
      rw [hrest, List.nil_append] at hcs
      subst hcs
      cases hc : p c with
      | true => exact ⟨c :: cs, by simp, List.forall_mem_cons.2 ⟨hc, hds⟩⟩
      | false => exact ⟨cs, by simp, hds⟩

theorem exists_trim (cs : List Char) : ∃ before behind, cs = before ++ trim cs ++ behind ∧
    (∀ c ∈ before, isBlank c = true) ∧ ∀ c ∈ behind, isBlank c = true := by
  obtain ⟨behind, hbehind, hblank⟩ := exists_dropEndWhile isBlank (trimStart cs)
  refine ⟨cs.takeWhile isBlank, behind, ?_, fun c hc => List.mem_takeWhile_imp hc, hblank⟩
  rw [List.append_assoc, trim, trimEnd, ← hbehind, trimStart, List.takeWhile_append_dropWhile]

theorem trim_of_blanks {before behind cs : List Char} (hbefore : ∀ c ∈ before, isBlank c = true)
    (hbehind : ∀ c ∈ behind, isBlank c = true) (hcs : ∀ c ∈ cs, isBlank c = false) :
    trim (before ++ cs ++ behind) = cs := by
  rw [trim_append hbehind, trim, trimStart, List.dropWhile_append_of_pos hbefore]
  exact trim_of_not_blank hcs

end Text

namespace Version

open Text (isBlank)

/-- The name is this text, apart from blanks around it and a run of `=` and `v` in front of it. -/
def IsDressed (name text : List Char) : Prop :=
  ∃ before marks behind, name = before ++ (marks ++ text) ++ behind ∧ (∀ c ∈ before, isBlank c = true) ∧
    (∀ c ∈ marks, c = '=' ∨ c = 'v') ∧ ∀ c ∈ behind, isBlank c = true

theorem isDressed_self (text : List Char) : IsDressed text text :=
  ⟨[], [], [], by simp, List.forall_mem_nil _, List.forall_mem_nil _, List.forall_mem_nil _⟩

/-- **A tag name gives a version just if it is that version, dressed.** -/
theorem clean_eq_some_iff (name version : String) :
    clean name = some version ↔ IsDressed name.toList version.toList ∧ Semantic.IsVersion version.toList := by
  constructor
  · intro h
    obtain ⟨v, hparse, hv⟩ := Option.map_eq_some_iff.1 h
    obtain ⟨hwritten, -⟩ := Semantic.render_of_parse hparse
    have hcore : version.toList = (Text.trim name.toList).dropWhile fun c => c == '=' || c == 'v' := by
      rw [← hv, String.toList_ofList, hwritten]
    refine ⟨?_, hcore ▸ Semantic.isVersion_of_parse hparse⟩
    obtain ⟨before, behind, hname, hbefore, hbehind⟩ := Text.exists_trim name.toList
    refine ⟨before, (Text.trim name.toList).takeWhile fun c => c == '=' || c == 'v', behind, ?_, hbefore, ?_, hbehind⟩
    · rw [hcore, List.takeWhile_append_dropWhile]
      exact hname
    · intro c hc
      simpa using List.mem_takeWhile_imp hc
  · rintro ⟨⟨before, marks, behind, hname, hbefore, hmarks, hbehind⟩, hversion⟩
    obtain ⟨v, hparse, hwritten⟩ := hversion.parse_render
    have hblank : ∀ c ∈ marks ++ version.toList, isBlank c = false := by
      intro c hc
      rcases List.mem_append.1 hc with hc | hc
      · rcases hmarks c hc with rfl | rfl <;> rfl
      · exact hversion.not_blank c hc
    have hcore : (marks ++ version.toList).dropWhile (fun c => c == '=' || c == 'v') = version.toList := by
      -- a version begins with a digit
      obtain ⟨d, rest, hd, hdigit⟩ := Semantic.head_of_parse hparse
      have hne : d ≠ '=' ∧ d ≠ 'v' := by
        constructor
        · rintro rfl
          cases hdigit
        · rintro rfl
          cases hdigit
      rw [List.dropWhile_append_of_pos fun c hc => by simpa using hmarks c hc, hd]
      simp [hne]
    rw [clean, hname, Text.trim_of_blanks hbefore hbehind hblank, hcore, hparse, Option.map_some, hwritten,
      String.ofList_toList]

theorem clean_clean {name version : String} (h : clean name = some version) : clean version = some version :=
  (clean_eq_some_iff version version).2 ⟨isDressed_self _, ((clean_eq_some_iff name version).1 h).2⟩

/-! ## The first eligible tag -/

section Eligible

variable {excluded tip : String} {tags : List Tag}

/-- The tag is not excluded, sits on the tip, and its name gives a version. -/
structure Tag.Eligible (excluded tip : String) (tag : Tag) : Prop where
  kept : excluded = "" ∨ ¬ excluded.toList <+: tag.name.toList
  onTip : tag.commit = tip
  named : ∃ version, IsDressed tag.name.toList version ∧ Semantic.IsVersion version

theorem Tag.isRelease_iff (tag : Tag) : tag.isRelease excluded tip = true ↔ tag.Eligible excluded tip := by
  have hkept : (!isExcluded excluded tag.name) = true ↔ excluded = "" ∨ ¬ excluded.toList <+: tag.name.toList := by
    rw [isExcluded, Bool.not_eq_true', Bool.and_eq_false_iff, Bool.not_eq_false', String.isEmpty_iff,
      ← Bool.not_eq_true, List.isPrefixOf_iff_prefix]
  have hnamed : (clean tag.name).isSome = true ↔
      ∃ version, IsDressed tag.name.toList version ∧ Semantic.IsVersion version := by
    rw [Option.isSome_iff_exists]
    constructor
    · rintro ⟨version, h⟩
      exact ⟨version.toList, (clean_eq_some_iff _ _).1 h⟩
    · rintro ⟨version, h⟩
      refine ⟨String.ofList version, (clean_eq_some_iff _ _).2 ?_⟩
      rwa [String.toList_ofList]
  rw [isRelease, Bool.and_eq_true, Bool.and_eq_true, hkept, hnamed, beq_iff_eq]
  exact ⟨fun h => ⟨h.1.1, h.1.2, h.2⟩, fun h => ⟨⟨h.kept, h.onTip⟩, h.named⟩⟩

instance (tag : Tag) : Decidable (tag.Eligible excluded tip) := decidable_of_iff _ tag.isRelease_iff

theorem Tag.versionAt_eq (tag : Tag) :
    tag.versionAt excluded tip = if tag.Eligible excluded tip then clean tag.name else none := by
  by_cases h : tag.Eligible excluded tip
  · have hrelease := tag.isRelease_iff.2 h
    simp only [isRelease, Bool.and_eq_true, Bool.not_eq_true'] at hrelease
    rw [if_pos h, versionAt, if_neg (by simp [hrelease.1.1]), if_pos hrelease.1.2]
  · rw [if_neg h, versionAt]
    split
    · rfl
    · rename_i hkept
      split
      · rename_i hon
        cases hnamed : clean tag.name with
        | none => rfl
        | some version =>
          have hrelease : tag.isRelease excluded tip = true := by simp [isRelease, hkept, hon, hnamed]
          exact absurd (tag.isRelease_iff.1 hrelease) h
      · rfl

/-- Only the eligible tags count, and of them only the first. -/
theorem resolve_eq_filter : resolve tip tags excluded =
    ((tags.filter fun tag => tag.Eligible excluded tip).head?.bind fun tag => clean tag.name).getD tip := by
  rw [resolve]
  induction tags with
  | nil => rfl
  | cons tag tags ih =>
    rw [List.findSome?_cons, tag.versionAt_eq]
    by_cases h : tag.Eligible excluded tip
    · obtain ⟨version, hversion⟩ := Option.isSome_iff_exists.1 (Bool.and_eq_true_iff.1 (tag.isRelease_iff.2 h)).2
      simp [h, hversion]
    · simp only [h, if_false, decide_false, Bool.false_eq_true, not_false_iff, List.filter_cons_of_neg]
      exact ih

theorem resolve_of_none (h : ∀ tag ∈ tags, ¬ tag.Eligible excluded tip) : resolve tip tags excluded = tip := by
  have hnil : tags.filter (fun tag => tag.Eligible excluded tip) = [] :=
    List.filter_eq_nil_iff.2 fun tag htag => by simpa using h tag htag
  rw [resolve_eq_filter, hnil]
  rfl

theorem resolve_of_first {before after : List Tag} {tag : Tag} (hbefore : ∀ t ∈ before, ¬ t.Eligible excluded tip)
    (htag : tag.Eligible excluded tip) :
    clean tag.name = some (resolve tip (before ++ tag :: after) excluded) := by
  have hnil : before.filter (fun tag => tag.Eligible excluded tip) = [] :=
    List.filter_eq_nil_iff.2 fun t ht => by simpa using hbefore t ht
  obtain ⟨version, hversion⟩ := Option.isSome_iff_exists.1 (Bool.and_eq_true_iff.1 (tag.isRelease_iff.2 htag)).2
  rw [resolve_eq_filter, List.filter_append, hnil, List.nil_append, List.filter_cons_of_pos (by simpa using htag)]
  simp [hversion]

theorem exists_first_eligible (h : ∃ tag ∈ tags, tag.Eligible excluded tip) :
    ∃ before tag after, tags = before ++ tag :: after ∧ (∀ t ∈ before, ¬ t.Eligible excluded tip) ∧
      tag.Eligible excluded tip := by
  induction tags with
  | nil => exact h.elim fun tag htag => absurd htag.1 List.not_mem_nil
  | cons first others ih =>
    by_cases hfirst : first.Eligible excluded tip
    · exact ⟨[], first, others, rfl, List.forall_mem_nil _, hfirst⟩
    · obtain ⟨tag, hmem, htag⟩ := h
      have hother : tag ∈ others := by
        rcases List.mem_cons.1 hmem with rfl | hmem
        · exact absurd htag hfirst
        · exact hmem
      obtain ⟨before, t, after, rfl, hbefore, ht⟩ := ih ⟨tag, hother, htag⟩
      exact ⟨first :: before, t, after, rfl, List.forall_mem_cons.2 ⟨hfirst, hbefore⟩, ht⟩

/-- **The published version is that of the first eligible tag.**

* If there is an eligible tag, it is the version that the first of them gives, and otherwise the tip as it is.
* Lists with the same eligible tags in the same order give the same version: whatever else is put in, left out or
  moved about makes no difference.
* The version that a name gives is, character by character, the name without the blanks around it and the `=` and
  `v` in front of it. It is one by the grammar, and cleaning it again leaves it as it is. -/
theorem resolve_first_eligible (tip excluded : String) (tags : List Tag) :
    ((∃ before tag after, tags = before ++ tag :: after ∧ (∀ t ∈ before, ¬ t.Eligible excluded tip) ∧
        tag.Eligible excluded tip ∧ clean tag.name = some (resolve tip tags excluded)) ∨
      (∀ t ∈ tags, ¬ t.Eligible excluded tip) ∧ resolve tip tags excluded = tip) ∧
    (∀ tags' : List Tag, tags'.filter (fun t => t.Eligible excluded tip) =
        tags.filter (fun t => t.Eligible excluded tip) →
      resolve tip tags' excluded = resolve tip tags excluded) ∧
    ∀ name version : String,
      (clean name = some version ↔ IsDressed name.toList version.toList ∧ Semantic.IsVersion version.toList) ∧
      (clean name = some version → clean version = some version) := by
  refine ⟨?_, fun tags' h => ?_, fun name version => ⟨clean_eq_some_iff name version, clean_clean⟩⟩
  · by_cases h : ∃ tag ∈ tags, tag.Eligible excluded tip
    · obtain ⟨before, tag, after, rfl, hbefore, htag⟩ := exists_first_eligible h
      exact .inl ⟨before, tag, after, rfl, hbefore, htag, resolve_of_first hbefore htag⟩
    · have hnone : ∀ t ∈ tags, ¬ t.Eligible excluded tip := fun t ht he => h ⟨t, ht, he⟩
      exact .inr ⟨hnone, resolve_of_none hnone⟩
  · rw [resolve_eq_filter, resolve_eq_filter, h]

end Eligible

/-- Tags of which the last but one is the first that counts. -/
def sampleTags : List Tag :=
  [⟨"vscext-9.9.9", "feedface00"⟩, ⟨"nightly", "feedface00"⟩, ⟨"v1.0.0", "0ddba11"⟩, ⟨"v01.2.3", "feedface00"⟩,
    ⟨" =v1.2.3-rc.1+007 ", "feedface00"⟩, ⟨"v2.0.0", "feedface00"⟩]

/-- A tag in full dress behind four that do not count; it makes no difference where these are. -/
theorem resolve_behind_ineligible :
    resolve "feedface00" sampleTags "vscext" = "1.2.3-rc.1+007" ∧
    resolve "feedface00" (sampleTags.drop 4 ++ sampleTags.take 2) "vscext" =
      resolve "feedface00" sampleTags "vscext" ∧
    IsDressed " =v1.2.3-rc.1+007 ".toList "1.2.3-rc.1+007".toList ∧
    Semantic.IsVersion "1.2.3-rc.1+007".toList ∧
    clean "1.2.3-rc.1+007" = some "1.2.3-rc.1+007" := by
  obtain ⟨-, same, cleaned⟩ := resolve_first_eligible "feedface00" "vscext" sampleTags
  obtain ⟨written, again⟩ := cleaned " =v1.2.3-rc.1+007 " "1.2.3-rc.1+007"
  obtain ⟨dressed, version⟩ := written.1 (by decide +kernel)
  exact ⟨by decide +kernel, same _ (by decide +kernel), dressed, version, again (by decide +kernel)⟩

example : clean "v18446744073709551616.0.0" = none := by decide +kernel

end Version

end Steward
