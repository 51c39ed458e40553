import Steward.Proofs.Course
import Steward.Proofs.Moments
import Steward.Proofs.Wiring

/-!
# A tool that was built from a release

The version of a release stands in two places: on the tag of the repository, and in the build information of
the tool that was built from it, with the `v` of the tag in front. Of a tag the `v` is taken off, of the build
information it is not: what identifies a build is the part behind its last hyphen, and if there is no hyphen,
then all of it. So the two agree only if that part begins as the version itself does
(`Version.installed_agrees_iff`), which it hardly ever does, and a check offers the user an update to what he
has (`Course.release_recognised_iff`).
-/

set_option autoImplicit false

namespace Steward

/-! ## Versions are written as they are read -/

namespace Text

theorem eq_digitChar {c : Char} {d : Nat} (h : hexDigit? c = some d) (hd : d < 10) : c = d.digitChar := by
  have hdecimal : '0' ≤ c ∧ c ≤ '9' ∧ c.toNat - 48 = d := by
    unfold hexDigit? at h
    split at h
    · rename_i hrange
      rw [Bool.and_eq_true, decide_eq_true_iff, decide_eq_true_iff] at hrange
      exact ⟨hrange.1, hrange.2, Option.some.inj h⟩
    · split at h
      · obtain rfl := Option.some.inj h
        omega
      · split at h
        · obtain rfl := Option.some.inj h
          omega
        · cases h
  obtain ⟨hlow, hhigh, rfl⟩ := hdecimal
  have hlow : 48 ≤ c.toNat := hlow
  have hhigh : c.toNat ≤ 57 := hhigh
  apply Char.toNat_inj.1
  rw [Nat.toNat_digitChar_of_lt_ten hd]
  omega

/-- What is read digit by digit begins with a digit of the base. -/
theorem digitsFrom_cons_eq_some {base acc n : Nat} {c : Char} {cs : List Char}
    (h : digitsFrom base acc (c :: cs) = some n) :
    ∃ d, hexDigit? c = some d ∧ d < base ∧ digitsFrom base (acc * base + d) cs = some n := by
  rw [digitsFrom] at h
  split at h
  · rename_i d hc
    split at h
    · rename_i hd
      exact ⟨d, hc, hd, h⟩
    · cases h
  · cases h

/-- Digits that are read behind a value stand behind the digits of the value in the result. -/
theorem toDigits_of_digitsFrom {cs : List Char} {acc n : Nat} (hacc : 0 < acc)
    (h : digitsFrom 10 acc cs = some n) : Nat.toDigits 10 n = Nat.toDigits 10 acc ++ cs := by
  induction cs generalizing acc with
  | nil =>
    obtain rfl := Option.some.inj h
    exact (List.append_nil _).symm
  | cons c cs ih =>
    obtain ⟨d, hc, hd, hrest⟩ := digitsFrom_cons_eq_some h
    have hdigits := Nat.toDigits_append_toDigits (b := 10) (n := acc) (d := d) (by decide) hacc hd
    rw [Nat.toDigits_of_lt_base hd, ← eq_digitChar hc hd] at hdigits
    rw [ih (by omega) hrest, Nat.mul_comm acc 10, ← hdigits, List.append_assoc]
    rfl

theorem splitAll_join {sep : Char} {cs part : List Char} {parts : List (List Char)}
    (h : splitAll sep cs = part :: parts) : part ++ parts.flatMap (sep :: ·) = cs := by
  induction cs generalizing part parts with
  | nil =>
    cases h
    rfl
  | cons c cs ih =>
    rw [splitAll] at h
    obtain ⟨first, others, hrest⟩ := List.exists_cons_of_ne_nil (splitAll_ne_nil sep cs)
    rw [hrest] at h
    split at h
    · rename_i hc
      obtain rfl := beq_iff_eq.1 hc
      cases h
      rw [List.nil_append, List.flatMap_cons, List.cons_append, ih hrest]
    · cases h
      rw [List.cons_append, ih hrest]

theorem trim_of_not_blank {cs : List Char} (h : ∀ c ∈ cs, isBlank c = false) : trim cs = cs := by
  rcases List.eq_nil_or_concat cs with rfl | ⟨front, d, rfl⟩
  · rfl
  · rw [List.concat_eq_append] at h ⊢
    have hd : isBlank d = false := h d (List.mem_append_right front List.mem_cons_self)
    cases front with
    | nil => simp [trim, trimStart, trimEnd, dropEndWhile, hd]
    | cons c front => exact trim_eq_self (h c List.mem_cons_self) hd front

theorem afterLast_subset (sep : Char) (cs : List Char) : afterLast sep cs ⊆ cs := by
  by_cases hmem : sep ∈ cs
  · obtain ⟨before, behind, rfl, hb⟩ := exists_last hmem
    rw [afterLast, splitLast_append hb]
    exact fun c hc => List.mem_append_right before (List.mem_cons_of_mem sep hc)
  · rw [afterLast, splitLast_of_not_mem hmem]
    exact fun c hc => hc

theorem afterLast_cons {sep : Char} {cs : List Char} (h : sep ∈ cs) (c : Char) :
    afterLast sep (c :: cs) = afterLast sep cs := by
  obtain ⟨before, behind, rfl, hb⟩ := exists_last h
  rw [← List.cons_append, afterLast, afterLast, splitLast_append hb, splitLast_append hb]

end Text

namespace Version.Semantic

open Text

theorem component?_eq {cs : List Char} {n : Nat} (h : component? cs = some n) : Nat.toDigits 10 n = cs := by
  cases cs with
  | nil => cases h
  | cons c cs =>
    obtain ⟨hzero, hdecimal⟩ : (c = '0' → cs = []) ∧ digitsFrom 10 0 (c :: cs) = some n := by
      unfold component? at h
      split at h
      · cases h
      · rename_i hno
        refine ⟨?_, ?_⟩
        · rintro rfl
          cases cs with
          | nil => rfl
          | cons d cs => exact absurd rfl (hno d cs)
        · split at h
          · rename_i m hm
            split at h
            · exact Option.some.inj h ▸ hm
            · cases h
          · cases h
    obtain ⟨d, hc, hd, hrest⟩ := digitsFrom_cons_eq_some hdecimal
    rw [Nat.zero_mul, Nat.zero_add] at hrest
    have hchar := eq_digitChar hc hd
    by_cases hpos : 0 < d
    · rw [toDigits_of_digitsFrom hpos hrest, Nat.toDigits_of_lt_base hd, ← hchar]
      rfl
    · obtain rfl : d = 0 := by omega
      obtain rfl := hzero hchar
      obtain rfl := Option.some.inj hrest
      rw [hchar]
      rfl

/-- A part of a version with the mark in front, if it is there. -/
def marked (mark : Char) : Option (List Char) → List Char
  | none => []
  | some cs => mark :: cs

theorem cutFirst_eq {sep : Char} {cs front : List Char} {rest : Option (List Char)}
    (h : cutFirst sep cs = (front, rest)) : front ++ marked sep rest = cs := by
  unfold cutFirst at h
  cases hdrop : cs.dropWhile (· != sep) with
  | nil =>
    rw [hdrop] at h
    cases h
    exact List.append_nil _
  | cons c tail =>
    rw [hdrop] at h
    cases h
    have hc : c = sep := by
      have hhead := List.head?_dropWhile_not (· != sep) cs
      rw [hdrop] at hhead
      simpa using hhead
    subst hc
    rw [marked, ← hdrop, List.takeWhile_append_dropWhile]

theorem marked_of_identifiers {ok : List Char → Bool} {part : Option (List Char)} {ids : List (List Char)}
    (h : identifiers? ok part = some ids) (mark : Char) : renderIdentifiers mark ids = marked mark part := by
  cases part with
  | none =>
    cases h
    rfl
  | some cs =>
    simp only [identifiers?] at h
    split at h
    · obtain rfl := Option.some.inj h
      obtain ⟨id, ids, hids⟩ := List.exists_cons_of_ne_nil (splitAll_ne_nil '.' cs)
      rw [hids, renderIdentifiers, List.cons_append, splitAll_join hids]
      rfl
    · cases h

/-- Whether the character can stand in a version. -/
def isVersionChar (c : Char) : Bool := isIdentifierChar c || c == '.' || c == '+'

theorem isBlank_of_isVersionChar {c : Char} (h : isVersionChar c = true) : isBlank c = false := by
  have hrange : c.toNat = 43 ∨ c.toNat = 45 ∨ c.toNat = 46 ∨ 48 ≤ c.toNat ∧ c.toNat ≤ 57 ∨
      65 ≤ c.toNat ∧ c.toNat ≤ 90 ∨ 97 ≤ c.toNat ∧ c.toNat ≤ 122 := by
    have hc : ((((c.isUpper = true ∨ c.isLower = true) ∨ c.isDigit = true) ∨ c = '-') ∨ c = '.') ∨ c = '+' := by
      rw [isVersionChar, isIdentifierChar, Bool.or_eq_true, Bool.or_eq_true, Bool.or_eq_true, beq_iff_eq,
        beq_iff_eq, beq_iff_eq] at h
      exact h.imp_left (Or.imp_left (Or.imp_left fun halpha =>
        (Bool.or_eq_true_iff.1 halpha).imp_left Bool.or_eq_true_iff.1))
    rcases hc with ((((hc | hc) | hc) | rfl) | rfl) | rfl
    · have hupper : 65 ≤ c.toNat ∧ c.toNat ≤ 90 := of_decide_eq_true hc
      omega
    · obtain ⟨hlow, hhigh⟩ := Bool.and_eq_true_iff.1 hc
      have hlow : 97 ≤ c.toNat := of_decide_eq_true hlow
      have hhigh : c.toNat ≤ 122 := of_decide_eq_true hhigh
      omega
    · have hdigit := (isDigit_iff c).1 hc
      omega
    · exact .inr (.inl rfl)
    · exact .inr (.inr (.inl rfl))
    · exact .inl rfl
  simp only [isBlank, Bool.or_eq_false_iff, Bool.and_eq_false_iff, decide_eq_false_iff_not,
    beq_eq_false_iff_ne]
  omega

theorem isVersionChar_of_identifiers {ok : List Char → Bool} {part : Option (List Char)}
    {ids : List (List Char)} (hok : ∀ id, ok id = true → isBuildIdentifier id = true)
    (h : identifiers? ok part = some ids) {mark : Char} (hmark : isVersionChar mark = true) :
    ∀ c ∈ renderIdentifiers mark ids, isVersionChar c = true := by
  have hids : ∀ id ∈ ids, ∀ c ∈ id, isVersionChar c = true := by
    intro id hid c hc
    have hvalid : ok id = true := by
      cases part with
      | none =>
        cases h
        cases hid
      | some cs =>
        simp only [identifiers?] at h
        split at h
        · rename_i hall
          obtain rfl := Option.some.inj h
          exact List.all_eq_true.1 hall id hid
        · cases h
    have hchars := (Bool.and_eq_true_iff.1 (hok id hvalid)).2
    simp [isVersionChar, List.all_eq_true.1 hchars c hc]
  cases ids with
  | nil => exact fun c hc => absurd hc List.not_mem_nil
  | cons id ids =>
    intro c hc
    rw [renderIdentifiers, List.cons_append, List.mem_cons, List.mem_append, List.mem_flatMap] at hc
    rcases hc with rfl | hc | ⟨id', hid', hc⟩
    · exact hmark
    · exact hids id List.mem_cons_self c hc
    · rcases List.mem_cons.1 hc with rfl | hc
      · rfl
      · exact hids id' (List.mem_cons_of_mem id hid') c hc

theorem isVersionChar_toDigits (n : Nat) : ∀ c ∈ Nat.toDigits 10 n, isVersionChar c = true := by
  intro c hc
  have hdigit : c.isDigit = true := Nat.isDigit_of_mem_toDigits (by decide) (by decide) hc
  simp [isVersionChar, isIdentifierChar, Char.isAlphanum, hdigit]

/-- What a version is read from: three numbers, and identifiers behind the marks. -/
theorem parse_cases {cs : List Char} {v : Semantic} (h : parse cs = some v) :
    ∃ front build core pre a b c, cutFirst '+' cs = (front, build) ∧ cutFirst '-' front = (core, pre) ∧
      splitAll '.' core = [a, b, c] ∧ component? a = some v.major ∧ component? b = some v.minor ∧
      component? c = some v.patch ∧ identifiers? isPreIdentifier pre = some v.pre ∧
      identifiers? isBuildIdentifier build = some v.build := by
  unfold parse at h
  cases hbuild : cutFirst '+' cs with
  | mk front build =>
    cases hpre : cutFirst '-' front with
    | mk core pre =>
      rw [hbuild] at h
      simp only [hpre] at h
      split at h
      · rename_i a b c hsplit
        simp only [Option.bind_eq_bind, Option.bind_eq_some_iff, Option.pure_def, Option.some.injEq] at h
        obtain ⟨major, hmajor, minor, hminor, patch, hpatch, preIds, hpreIds, buildIds, hbuildIds, rfl⟩ := h
        exact ⟨front, build, core, pre, a, b, c, rfl, hpre, hsplit, hmajor, hminor, hpatch, hpreIds, hbuildIds⟩
      · cases h

/-- **What is read as a version is written the same**, and it has no blanks in it. -/
theorem render_of_parse {cs : List Char} {v : Semantic} (h : parse cs = some v) :
    v.render = cs ∧ ∀ c ∈ cs, isBlank c = false := by
  obtain ⟨front, build, core, pre, a, b, c, hbuild, hpre, hsplit, hmajor, hminor, hpatch, hpreIds, hbuildIds⟩ :=
    parse_cases h
  have hwritten : v.render = cs := by
    simp only [render, component?_eq hmajor, component?_eq hminor, component?_eq hpatch,
      marked_of_identifiers hpreIds, marked_of_identifiers hbuildIds]
    rw [← cutFirst_eq hbuild, ← cutFirst_eq hpre, ← splitAll_join hsplit]
    simp
  refine ⟨hwritten, fun c hc => isBlank_of_isVersionChar ?_⟩
  rw [← hwritten] at hc
  simp only [render, List.mem_append, List.mem_cons] at hc
  rcases hc with (((hc | rfl | hc) | rfl | hc) | hc) | hc
  · exact isVersionChar_toDigits v.major c hc
  · rfl
  · exact isVersionChar_toDigits v.minor c hc
  · rfl
  · exact isVersionChar_toDigits v.patch c hc
  · exact isVersionChar_of_identifiers (fun id hid => (Bool.and_eq_true_iff.1 hid).1) hpreIds rfl c hc
  · exact isVersionChar_of_identifiers (fun id hid => hid) hbuildIds rfl c hc

/-- A version begins with a digit. -/
theorem head_of_parse {cs : List Char} {v : Semantic} (h : parse cs = some v) :
    ∃ c rest, cs = c :: rest ∧ c.isDigit = true := by
  obtain ⟨hwritten, -⟩ := render_of_parse h
  obtain ⟨d, ds, hdigits⟩ := List.exists_cons_of_ne_nil (Nat.toDigits_ne_nil (n := v.major) (b := 10))
  rw [render, hdigits] at hwritten
  cases cs with
  | nil => cases hwritten
  | cons c rest =>
    obtain rfl := (List.cons.inj hwritten).1
    exact ⟨d, rest, rfl, Nat.isDigit_of_mem_toDigits (by decide) (by decide) (hdigits ▸ List.mem_cons_self)⟩

end Version.Semantic

/-! ## The two versions of a release -/

namespace Version

open Text (afterLast)

variable {v : String} {sem : Semantic} {excluded tip t : String} {tags : List Tag}

/-- Whether a tag is a release tag on the tip. -/
def Tag.isRelease (excluded tip : String) (tag : Tag) : Bool :=
  !isExcluded excluded tag.name && tag.commit == tip && (clean tag.name).isSome

/-- The version that a build names itself by. -/
def identity? (version : String) : Option String :=
  match buildTail version with
  | [] => none
  | tail => some (String.ofList tail)

/-- The version that the repository names. -/
def published? (excluded tip : String) (tags : List Tag) : Option String :=
  if isBlankTip tip then none else some (resolve tip tags excluded)

/-- Whether the version begins again behind its last hyphen. -/
def beginsAgain (v : String) : Bool :=
  v.toList.contains '-' && sameShort (String.ofList (afterLast '-' v.toList)) v

theorem toOption_ofBuildInfo {text : String} (h : (Json.parse text.toList).bind buildVersion? = some t) :
    (ofBuildInfo text).toOption = identity? t := by
  rw [ofBuildInfo, h, identity?]
  cases htail : buildTail t <;> simp [htail, Except.toOption]

theorem resolve_of_find {tag : Tag} (h : tags.find? (Tag.isRelease excluded tip) = some tag) :
    some (resolve tip tags excluded) = clean tag.name := by
  rw [resolve]
  induction tags with
  | nil => cases h
  | cons first others ih =>
    rw [List.find?_cons] at h
    rw [List.findSome?_cons]
    cases hfirst : first.isRelease excluded tip with
    | true =>
      rw [hfirst] at h
      obtain rfl := Option.some.inj h
      simp only [Tag.isRelease, Bool.and_eq_true, Bool.not_eq_true'] at hfirst
      obtain ⟨version, hversion⟩ := Option.isSome_iff_exists.1 hfirst.2
      simp [Tag.versionAt, hfirst.1.1, hfirst.1.2, hversion]
    | false =>
      rw [hfirst] at h
      have hnone : first.versionAt excluded tip = none := by
        rw [Tag.isRelease, Bool.and_eq_false_iff, Bool.and_eq_false_iff] at hfirst
        unfold Tag.versionAt
        split
        · rfl
        · rename_i hkept
          split
          · rename_i hon
            simpa [hkept, hon] using hfirst
          · rfl
      rw [hnone]
      exact ih h

theorem clean_release (h : Semantic.parse v.toList = some sem) : clean ("v" ++ v) = some v := by
  obtain ⟨hwritten, hblank⟩ := Semantic.render_of_parse h
  obtain ⟨c, rest, hcs, hdigit⟩ := Semantic.head_of_parse h
  have htrim : Text.trim ("v" ++ v).toList = 'v' :: v.toList := by
    rw [String.toList_append]
    exact Text.trim_of_not_blank (List.forall_mem_cons.2 ⟨by decide, hblank⟩)
  have hcore : ('v' :: v.toList).dropWhile (fun c => c == '=' || c == 'v') = v.toList := by
    rw [hcs]
    have hne : c ≠ '=' ∧ c ≠ 'v' := by
      constructor
      · rintro rfl
        cases hdigit
      · rintro rfl
        cases hdigit
    simp [hne]
  rw [clean, htrim, hcore, h, Option.map_some, hwritten, String.ofList_toList]

theorem buildTail_release (h : Semantic.parse v.toList = some sem) :
    buildTail ("v" ++ v) = if '-' ∈ v.toList then afterLast '-' v.toList else 'v' :: v.toList := by
  obtain ⟨-, hblank⟩ := Semantic.render_of_parse h
  have hsubset := Text.afterLast_subset '-' ('v' :: v.toList)
  have htail : buildTail ("v" ++ v) = afterLast '-' ('v' :: v.toList) := by
    rw [buildTail, String.toList_append]
    refine Text.trim_of_not_blank fun c hc => ?_
    rcases List.mem_cons.1 (hsubset hc) with rfl | hc
    · decide
    · exact hblank c hc
  rw [htail]
  split
  · rename_i hmem
    exact Text.afterLast_cons hmem 'v'
  · rename_i hmem
    have hnot : '-' ∉ 'v' :: v.toList := by simp [hmem]
    rw [afterLast, Text.splitLast_of_not_mem hnot]

theorem sameShort_iff (a b : String) :
    sameShort a b = true ↔ a.toList.take shortLength = b.toList.take shortLength := by
  rw [sameShort, short, short, beq_iff_eq]
  constructor
  · intro h
    simpa using congrArg String.toList h
  · intro h
    rw [h]

/-- **A build of a release and the tag it was built from agree just if the version begins again behind its
last hyphen.** -/
theorem installed_agrees_iff (h : Semantic.parse v.toList = some sem) :
    (∃ installed, identity? ("v" ++ v) = some installed ∧ sameShort installed v = true) ↔
      beginsAgain v = true := by
  obtain ⟨c, rest, hcs, hdigit⟩ := Semantic.head_of_parse h
  rw [identity?, buildTail_release h, beginsAgain, Bool.and_eq_true, List.contains_iff_mem]
  by_cases hmem : '-' ∈ v.toList
  · rw [if_pos hmem, and_iff_right hmem]
    cases htail : afterLast '-' v.toList with
    | nil =>
      -- there is no build, and nothing does not begin as the version does
      have hdiffer : ¬ sameShort (String.ofList []) v = true := by
        rw [sameShort_iff, hcs]
        exact nofun
      exact iff_of_false (fun ⟨installed, hnone, _⟩ => nomatch hnone) hdiffer
    | cons d ds => simp
  · rw [if_neg hmem]
    have hdiffer : ¬ sameShort (String.ofList ('v' :: v.toList)) v = true := by
      rw [sameShort_iff, String.toList_ofList, hcs]
      intro heq
      obtain rfl := (List.cons.inj heq).1
      cases hdigit
    refine iff_of_false ?_ fun hagain => hmem hagain.1
    rintro ⟨installed, hsome, hsame⟩
    obtain rfl := Option.some.inj hsome
    exact hdiffer hsame

/-- Both versions are known and count as the same. -/
def Agree (installed published : Option String) : Prop :=
  ∃ i p, installed = some i ∧ published = some p ∧ sameShort i p = true

/-- Both versions are known, and they differ. -/
def Differ (installed published : Option String) : Prop :=
  ∃ i p, installed = some i ∧ published = some p ∧ sameShort i p = false

theorem Differ.not_agree {installed published : Option String} (h : Differ installed published) :
    ¬ Agree installed published := by
  rintro ⟨i, p, hi, hp, hsame⟩
  obtain ⟨i', p', hi', hp', hdiffer⟩ := h
  obtain rfl := Option.some.inj (hi.symm.trans hi')
  obtain rfl := Option.some.inj (hp.symm.trans hp')
  rw [hsame] at hdiffer
  cases hdiffer

theorem resolve_release (h : Semantic.parse v.toList = some sem)
    (htag : tags.find? (Tag.isRelease excluded tip) = some ⟨"v" ++ v, tip⟩) :
    resolve tip tags excluded = v :=
  Option.some.inj ((resolve_of_find htag).trans (clean_release h))

theorem release_agrees_iff (h : Semantic.parse v.toList = some sem)
    (htag : tags.find? (Tag.isRelease excluded tip) = some ⟨"v" ++ v, tip⟩) :
    Agree (identity? ("v" ++ v)) (published? excluded tip tags) ↔
      isBlankTip tip = false ∧ beginsAgain v = true := by
  rw [← installed_agrees_iff h, Agree, published?, resolve_release h htag]
  cases isBlankTip tip with
  | true => exact iff_of_false (fun ⟨i, p, _, hp, _⟩ => nomatch hp) fun hne => nomatch hne.1
  | false => simp

end Version

/-! ## What a check makes of what it finds out -/

/-- The user is asked something. -/
def Request.isPrompt : Request → Bool
  | .query (.prompt ..) => true
  | .awaitPrompt _ => true
  | _ => false

/-- Whether this is what a check is told about a tool that was built from the tag `t`. -/
def tellsRelease (t tip : String) (tags : List Version.Tag) : (r : Request) → r.Answer → Bool
  | .query .locate, path => path.isSome
  | .awaitCommand _, .ok output =>
    output.success && (Json.parse output.stdout.toList).bind Version.buildVersion? == some t
  | .awaitCommand _, .error _ => false
  | .query .tipCommit, answer => answer.toOption == some tip
  | .query .tags, answer => answer.toOption == some tags
  | _, _ => true

/-- How far a check has come whose questions are answered in a certain way. -/
inductive Inquest where
  /-- all answers were like that, and the user was not asked -/
  | faithful
  /-- they were until the user was asked -/
  | offered
  /-- one was not -/
  | astray
  deriving Repr, DecidableEq

/-- The steps of a check, with the user asked only if `Differ` is the case. -/
inductive Inquire (fits : (r : Request) → r.Answer → Bool) (Differ : Prop) : Protocol Inquest where
  | learn {r : Request} {a : r.Answer} (prompt : r.isPrompt = false) (fact : fits r a = true) :
      Inquire fits Differ .faithful r a .faithful
  | stray {r : Request} {a : r.Answer} (fact : fits r a = false) : Inquire fits Differ .faithful r a .astray
  | offer {severity : Severity} {text : String} {choices : List String} {ticket : Nat} (differ : Differ) :
      Inquire fits Differ .faithful (.query (.prompt severity text choices)) ticket .offered
  | settled {x : Inquest} {r : Request} {a : r.Answer} (h : x ≠ .faithful) : Inquire fits Differ x r a x

namespace Program

variable {α β : Type} {fits : (r : Request) → r.Answer → Bool} {Differ : Prop}

/-- As long as all answers are like that the program does not ask the user, and this is what it ends with. -/
def Under (fits : (r : Request) → r.Answer → Bool) (Q : α → Prop) : Program α → Prop
  | .done a => Q a
  | .ask r k => r.isPrompt = false ∧ ∀ a, fits r a = true → (k a).Under fits Q

theorem Under.bind {Q : β → Prop} {p : Program α} {f : α → Program β}
    (h : p.Under fits fun a => (f a).Under fits Q) : (p.bind f).Under fits Q := by
  induction p with
  | done a => exact h
  | ask r k ih => exact ⟨h.1, fun a ha => ih a (h.2 a ha)⟩

theorem Under.mono {Q R : α → Prop} (hQR : ∀ a, Q a → R a) {p : Program α} (h : p.Under fits Q) :
    p.Under fits R := by
  induction p with
  | done a => exact hQR a h
  | ask r k ih => exact ⟨h.1, fun a ha => ih a (h.2 a ha)⟩

/-- Two programs side by side do not hinder each other. -/
theorem Under.both {Q : α → Prop} {R : β → Prop} {p : Program α} {q : Program β} (hp : p.Under fits Q)
    (hq : q.Under fits R) (turns : List Side) :
    (both turns p q).Under fits fun results => Q results.1 ∧ R results.2 := by
  have rest : ∀ {p : Program α} {q : Program β}, p.Under fits Q → q.Under fits R →
      (p.bind fun a => q.bind fun b => .done (a, b)).Under fits fun results => Q results.1 ∧ R results.2 :=
    fun hp hq => (hp.mono fun a ha => (hq.mono fun b hb => ⟨ha, hb⟩).bind).bind
  induction turns generalizing p q with
  | nil => cases p <;> cases q <;> exact rest hp hq
  | cons side turns ih =>
    cases side with
    | left =>
      cases p with
      | done a => cases q <;> exact rest hp hq
      | ask r k => exact ⟨hp.1, fun a ha => ih (hp.2 a ha) hq⟩
    | right =>
      cases q with
      | done b => cases p <;> exact rest hp hq
      | ask r k => cases p <;> exact ⟨hq.1, fun a ha => ih hp (hq.2 a ha)⟩

theorem obeys_settled {Q : Inquest → α → Prop} {x : Inquest} (hx : x ≠ .faithful) (p : Program α)
    (hQ : ∀ a, Q x a) : p.Obeys (Inquire fits Differ) Q x := by
  induction p with
  | done a => exact hQ a
  | ask r k ih => exact fun a => ⟨x, .settled hx, ih a⟩

theorem Under.obeys {Q : α → Prop} {p : Program α} (h : p.Under fits Q) :
    p.Obeys (Inquire fits Differ) (fun y a => y = .faithful ∧ Q a ∨ y = .astray) .faithful := by
  induction p with
  | done a => exact .inl ⟨rfl, h⟩
  | ask r k ih =>
    intro a
    cases ha : fits r a with
    | true => exact ⟨_, .learn h.1 ha, ih a (h.2 a ha)⟩
    | false => exact ⟨_, .stray ha, obeys_settled (x := .astray) nofun _ fun _ => .inr rfl⟩

end Program

section Checking

open Program

variable {s : Service} {t tip path : String} {tags : List Version.Tag} {Differ : Prop}

theorem lookupInstalled_finds (path : String) :
    (Version.lookupInstalled s.toolchain path).Under (tellsRelease t tip tags)
      (· = Version.identity? t) := by
  refine ⟨rfl, fun ticket _ => ⟨rfl, fun result hresult => ?_⟩⟩
  cases result with
  | error e => cases hresult
  | ok output =>
    obtain ⟨hsuccess, htext⟩ := Bool.and_eq_true_iff.1 hresult
    simp only [Program.bind, hsuccess, if_true]
    exact Version.toOption_ofBuildInfo (beq_iff_eq.1 htext)

theorem lookupPublished_finds (excluded : String) :
    (Version.lookupPublished excluded).Under (tellsRelease t tip tags)
      (· = Version.published? excluded tip tags) := by
  -- whoever is told something is told no failure
  have told : ∀ {α : Type} [BEq α] [LawfulBEq α] {answer : Except Failure α} {a : α},
      (answer.toOption == some a) = true → answer = .ok a := by
    intro α _ _ answer a h
    cases answer with
    | error e => cases h
    | ok b => rw [Option.some.inj (beq_iff_eq.1 h)]
  refine ⟨rfl, fun answer hanswer => ?_⟩
  obtain rfl : answer = .ok tip := told hanswer
  simp only [Program.bind, Version.published?]
  split
  · rfl
  · refine ⟨rfl, fun answer hanswer => ?_⟩
    obtain rfl : answer = .ok tags := told hanswer
    rfl

/-- What a check ends with: only without asking the user can it find the tool up to date. -/
def Inquest.Ends (installed published : Option String) : Inquest → Update.Check → Prop
  | .faithful, c => Version.Agree installed published ∧ (∃ versions, c = .upToDate versions) ∨
      (installed = none ∨ published = none) ∧ c = .skipped
  | .offered, c => ∀ versions, c ≠ .upToDate versions
  | .astray, _ => True

theorem offer_inquires (versions : Version.Pair) (hd : Differ) :
    (Update.offer s versions).Obeys (Inquire (tellsRelease t tip tags) Differ)
      (fun y c => y = .offered ∧ ∀ versions, c ≠ .upToDate versions) .faithful := by
  refine Obeys.ask fun _ => ⟨_, .learn rfl rfl, fun ticket => ⟨_, .offer hd, fun choice => ?_⟩⟩
  refine ⟨_, .settled nofun, ?_⟩
  dsimp only [Program.bind]
  split
  · exact ⟨rfl, nofun⟩
  · refine obeys_bind.2 (obeys_settled (x := .offered) nofun _ fun outcome => ?_)
    cases outcome <;> exact ⟨rfl, nofun⟩

/-- **A check asks the user only if the two versions that it found out differ.** -/
theorem check_inquires (s : Service) :
    (Update.check s).Obeys (Inquire (tellsRelease t tip tags)
        (Version.Differ (Version.identity? t) (Version.published? s.excludedTagStart tip tags)))
      (Inquest.Ends (Version.identity? t) (Version.published? s.excludedTagStart tip tags)) .faithful := by
  refine Obeys.ask fun _ => ⟨_, .learn rfl rfl, Obeys.ask fun path => ?_⟩
  cases path with
  | none =>
    refine ⟨_, .stray rfl, ?_⟩
    exact obeys_settled (x := .astray) nofun _ fun _ => trivial
  | some path =>
    refine ⟨_, .learn rfl rfl, obeys_bind.2 ?_⟩
    refine ((lookupInstalled_finds path).both (lookupPublished_finds _) s.turns).obeys.mono ?_
    rintro y ⟨installed, published⟩ (⟨rfl, rfl, rfl⟩ | rfl)
    · cases hi : Version.identity? t with
      | none => exact .inr ⟨.inl rfl, rfl⟩
      | some i =>
        cases hp : Version.published? s.excludedTagStart tip tags with
        | none => exact .inr ⟨.inr rfl, rfl⟩
        | some p =>
          dsimp only
          cases hsame : Version.sameShort i p with
          | false =>
            have havailable : (Version.Pair.mk i p).updateAvailable = true := by
              simp [Version.Pair.updateAvailable, Version.Pair.upToDate, hsame]
            rw [if_pos havailable]
            refine (offer_inquires ⟨i, p⟩ ⟨i, p, rfl, rfl, hsame⟩).mono fun y c hy => ?_
            obtain ⟨rfl, hc⟩ := hy
            exact hc
          | true =>
            have havailable : ¬ (Version.Pair.mk i p).updateAvailable = true := by
              simp [Version.Pair.updateAvailable, Version.Pair.upToDate, hsame]
            rw [if_neg havailable]
            exact Obeys.ask fun _ => ⟨_, .learn rfl rfl, .inl ⟨⟨i, p, rfl, rfl, hsame⟩, _, rfl⟩⟩
    · exact obeys_settled (x := .astray) nofun _ fun _ => trivial

theorem checkForUpdates_inquires (s : Service) :
    (Call.checkForUpdates.outcome s).Obeys (Inquire (tellsRelease t tip tags)
        (Version.Differ (Version.identity? t) (Version.published? s.excludedTagStart tip tags)))
      (fun y o => ∃ c, o = .check (some c) ∧
        y.Ends (Version.identity? t) (Version.published? s.excludedTagStart tip tags) c) .faithful :=
  obeys_bind.2 ((check_inquires s).mono fun _ c hy => ⟨c, rfl, hy⟩)

theorem lookupInstalled_endsIn (path : String) : (Version.lookupInstalled s.toolchain path).EndsIn 2 := by
  refine EndsIn.bind (n := 2) (m := 0) (fun _ => fun _ => trivial) fun output => ?_
  cases output with
  | error e => trivial
  | ok output => dsimp only; split <;> trivial

theorem lookupPublished_endsIn (excluded : String) : (Version.lookupPublished excluded).EndsIn 2 := by
  refine EndsIn.ask fun answer => ?_
  cases answer with
  | error e => trivial
  | ok tip =>
    dsimp only
    split
    · trivial
    · refine EndsIn.ask fun answer => ?_
      cases answer <;> trivial

theorem installUnprompted_endsIn : (Tool.installUnprompted s).EndsIn 3 := by
  refine EndsIn.ask fun outcome => ?_
  cases outcome with
  | some o => trivial
  | none =>
    refine EndsIn.bind (n := 2) (m := 0) (fun _ => fun _ => trivial) fun output => ?_
    cases output with
    | error e => trivial
    | ok output => dsimp only; split <;> trivial

theorem runUpdate_endsIn : (Update.runUpdate s).EndsIn 8 := by
  refine EndsIn.ask fun _ => EndsIn.ask fun _ => ?_
  refine EndsIn.bind (n := 3) (m := 3) installUnprompted_endsIn fun outcome => ?_
  cases outcome with
  | cancelled => exact fun _ => trivial
  | _ => exact fun _ => fun _ => fun _ => trivial

theorem offer_endsIn (versions : Version.Pair) : (Update.offer s versions).EndsIn 11 := by
  refine EndsIn.ask fun _ => fun ticket => fun choice => ?_
  dsimp only [Program.bind]
  split
  · trivial
  · refine EndsIn.bind (n := 8) (m := 0) runUpdate_endsIn fun outcome => ?_
    cases outcome <;> trivial

theorem check_endsIn (s : Service) : (Update.check s).EndsIn 17 := by
  refine EndsIn.ask fun _ => EndsIn.ask fun path => ?_
  cases path with
  | none => exact fun _ => trivial
  | some path =>
    have lookUp := (lookupInstalled_endsIn (s := s) path).both (lookupPublished_endsIn s.excludedTagStart) s.turns
    refine EndsIn.bind (n := 4) (m := 11) lookUp fun versions => ?_
    split
    · dsimp only
      split
      · exact offer_endsIn _
      · exact fun _ => trivial
    · trivial

theorem checkForUpdates_endsIn (s : Service) : (Call.checkForUpdates.outcome s).EndsIn 17 :=
  EndsIn.bind (n := 17) (m := 0) (check_endsIn s) fun _ => EndsIn.done _

end Checking

/-! ## The course of a check -/

/-- Whether the task `i` asks the user something. -/
def Act.prompts (i : Nat) : Act → Bool
  | .call _ => false
  | .step task r _ => task == i && r.isPrompt

/-- The task has not asked the user anything. -/
def Unprompted (i : Nat) (acts : List Act) : Prop := ∀ x ∈ acts, x.prompts i = false

instance (i : Nat) (acts : List Act) : Decidable (Unprompted i acts) :=
  inferInstanceAs (Decidable (∀ x ∈ acts, x.prompts i = false))

/-- Until it asked the user, if it did, the task was answered like that. -/
def Answered {ε : Type} (fits : (r : Request) → r.Answer → Bool) (i : Nat) (past : List (Episode ε)) : Prop :=
  ∀ later v (r : Request) (a : r.Answer) earlier, past = later ++ ⟨v, .step i r a⟩ :: earlier →
    Unprompted i (actsOf earlier) → fits r a = true

def Act.fits (fits : (r : Request) → r.Answer → Bool) (i : Nat) : Act → Bool
  | .call _ => true
  | .step task r a => task != i || fits r a

theorem answered_of_fits {ε : Type} {fits : (r : Request) → r.Answer → Bool} {i : Nat}
    {past : List (Episode ε)} (h : ∀ x ∈ actsOf past, x.fits fits i = true) : Answered fits i past := by
  rintro later v r a earlier rfl -
  have hm : .step i r a ∈ actsOf (later ++ ⟨v, .step i r a⟩ :: earlier) := by simp [actsOf]
  simpa [Act.fits] using h _ hm

/-- What lies behind a check that has come so far. -/
def Inquest.Reached {ε : Type} (fits : (r : Request) → r.Answer → Bool) (Differ : Prop) (i : Nat)
    (past : List (Episode ε)) : Inquest → Prop
  | .faithful => Unprompted i (actsOf past)
  | .offered => Differ ∧ ¬ Unprompted i (actsOf past)
  | .astray => ¬ Answered fits i past

section Courses

variable {ε : Type} {env : Environment ε} {s : Service} {acts₀ : List Act} {w₀ w : World ε}
  {past : List (Episode ε)} {fits : (r : Request) → r.Answer → Bool} {Differ : Prop} {i : Nat}
  {x : Inquest} {e : Episode ε}

theorem Answered.tail (h : Answered fits i (e :: past)) : Answered fits i past := by
  intro later v r a earlier hpast
  exact h (e :: later) v r a earlier (by rw [hpast, List.cons_append])

theorem Unprompted.tail {x : Act} {acts : List Act} (h : Unprompted i (x :: acts)) : Unprompted i acts :=
  fun y hy => h y (List.mem_cons_of_mem x hy)

/-- What is no prompt of the task leaves it where it is. -/
theorem Inquest.Reached.cons (h : x.Reached fits Differ i past)
    (he : x = .faithful → e.act.prompts i = false) : x.Reached fits Differ i (e :: past) := by
  cases x with
  | faithful => exact List.forall_mem_cons.2 ⟨he rfl, h⟩
  | offered => exact ⟨h.1, fun hu => h.2 hu.tail⟩
  | astray => exact fun hall => h hall.tail

theorem Course.inquired {Q : Inquest → Outcome → Prop} {c : Call} (h₀ : Run env s acts₀ w₀)
    (hc : (c.outcome s).Obeys (Inquire fits Differ) Q .faithful) (h : Course env s (w₀.called s c) past w) :
    ∃ x : Inquest, x.Reached fits Differ w₀.tasks.length past ∧
      w.Keeps (Inquire fits Differ) Q w₀.tasks.length x := by
  refine Course.accompany (J := fun x past _ => x.Reached fits Differ w₀.tasks.length past) h₀ hc
    (List.forall_mem_nil _) ?_ ?_ ?_ (fun hJ _ => hJ) h
  · intro x y past w w₁ r k a _ hJ hp hperf hP
    cases hP with
    | learn prompt fact => exact hJ.cons fun _ => by rw [Act.prompts, prompt, Bool.and_false]
    | stray fact => exact fun hall => Bool.false_ne_true (fact.symm.trans (hall [] w r a past rfl hJ))
    | offer differ =>
      refine ⟨differ, fun hu => ?_⟩
      have hprompt := hu _ List.mem_cons_self
      simp [Act.prompts, Request.isPrompt] at hprompt
    | settled hx => exact hJ.cons fun heq => absurd heq hx
  · intro x past w w₁ task r k a _ hJ hne hp hperf
    refine hJ.cons fun _ => ?_
    rw [Act.prompts, beq_false_of_ne hne, Bool.false_and]
  · intro x past w c' _ hJ
    exact hJ.cons fun _ => rfl

/-- **When a release is recognised.** Take a check in any run, with anything else going on. The tool that it
finds was built from the tag `v…` of a release, which is the first release tag on the tip.

* The installed version and the published one agree just if the version begins again behind its last hyphen.
* Just then, provided that there is a tip, the check ends with the tool up to date and without asking the user.
* As long as the user is not asked, nothing but the command that tells the installed version can hold it up, and
  it never puts more than 17 requests. -/
theorem Course.release_recognised_iff {v tip : String} {sem : Version.Semantic} {tags : List Version.Tag}
    (hv : Version.Semantic.parse v.toList = some sem)
    (htag : tags.find? (Version.Tag.isRelease s.excludedTagStart tip) = some ⟨"v" ++ v, tip⟩)
    (h₀ : Run env s acts₀ w₀) (h : Course env s (w₀.called s .checkForUpdates) past w)
    (hfound : Answered (tellsRelease ("v" ++ v) tip tags) w₀.tasks.length past) :
    (∀ text : String, (Json.parse text.toList).bind Version.buildVersion? = some ("v" ++ v) →
      ((∃ installed, Version.ofBuildInfo text = .ok installed ∧
        Version.sameShort installed (Version.resolve tip tags s.excludedTagStart) = true) ↔
        Version.beginsAgain v = true)) ∧
    (∀ o, w.result? w₀.tasks.length = some o →
      (Unprompted w₀.tasks.length (actsOf past) ∧ (∃ versions, o = .check (some (.upToDate versions))) ↔
        Version.isBlankTip tip = false ∧ Version.beginsAgain v = true)) ∧
    (Version.isBlankTip tip = false → Version.beginsAgain v = true →
      Unprompted w₀.tasks.length (actsOf past)) ∧
    (w.result? w₀.tasks.length = none → Unprompted w₀.tasks.length (actsOf past) →
      (w.attempt env s.roles w₀.tasks.length).isSome = true ∨
      ∃ ticket k, w.pending w₀.tasks.length = some ⟨.awaitCommand ticket, k⟩ ∧
        env.result? w.outside ticket = none) ∧
    (actsOf past).countP (·.task? == some w₀.tasks.length) ≤ 17 := by
  obtain ⟨x, hx, hkeep⟩ := h.inquired h₀ (checkForUpdates_inquires s)
  have hagree := Version.release_agrees_iff hv htag
  refine ⟨fun text htext => ?_, fun o ho => ?_, fun htip hagain => ?_, fun hres hu => ?_,
    h.steps_le h₀ (checkForUpdates_endsIn s)⟩
  · rw [Version.resolve_release hv htag, ← Version.installed_agrees_iff hv,
      ← Version.toOption_ofBuildInfo htext]
    cases Version.ofBuildInfo text <;> simp [Except.toOption]
  · rw [← hagree]
    obtain ⟨c, rfl, hends⟩ := hkeep.result ho
    cases x with
    | faithful =>
      rcases hends with ⟨hsame, versions, rfl⟩ | ⟨hnone, rfl⟩
      · exact iff_of_true ⟨hx, versions, rfl⟩ hsame
      · refine iff_of_false (fun ⟨_, versions, hc⟩ => nomatch hc) ?_
        rintro ⟨i, p, hi, hp, -⟩
        rcases hnone with hnone | hnone
        · exact nomatch hi.symm.trans hnone
        · exact nomatch hp.symm.trans hnone
    | offered => exact iff_of_false (fun hu => hx.2 hu.1) hx.1.not_agree
    | astray => exact absurd hfound hx
  · cases x with
    | faithful => exact hx
    | offered => exact absurd (hagree.2 ⟨htip, hagain⟩) hx.1.not_agree
    | astray => exact absurd hfound hx
  · refine (hkeep.goes_on hres).imp_right fun hwait => ?_
    obtain ⟨r, k, hp, hwaits, hnone⟩ := hwait
    have hused := (h.run_of_call h₀).kind_of_pending (h₀.role_of_call .checkForUpdates _) hp
    cases r with
    | awaitCommand ticket => exact ⟨ticket, k, hp, Option.map_eq_none_iff.1 hnone⟩
    | awaitPrompt ticket =>
      -- whoever waits for the user has asked him
      obtain ⟨y, hP⟩ := hkeep.pending hp none
      cases hP with
      | learn prompt => cases prompt
      | stray fact => cases fact
      | settled hsettled =>
        cases x with
        | faithful => exact absurd rfl hsettled
        | offered => exact absurd hu hx.2
        | astray => exact absurd hfound hx
    | nextEvent | awaitExit | awaitCheck => cases hused
    | _ => cases hwaits

end Courses

namespace Rehearsal

/-- The tool was built from the tag, which is on the tip. -/
def released (t : String) : Script where
  versionResult := .ok { stdout := "\x7b\"Main\": \x7b\"Version\": \"" ++ t ++ "\"\x7d\x7d" }
  tags := .ok [⟨t, "feedface00"⟩]

/-- A check that looks up the versions. -/
def looked : List (Move Script) := List.replicate 8 (.step 0)

/-- The user is asked and says nothing. -/
def ignored : List (Move Script) := List.replicate 10 (.step 0)

end Rehearsal

/-- A pre-release that repeats its own numbers is recognised. -/
theorem recognised_by_chance : ∃ past w,
    Course Rehearsal.Script.environment Rehearsal.sample
      ((Rehearsal.scene (Rehearsal.released "v10.20.30-10.20.30") []).2.called Rehearsal.sample
        .checkForUpdates) past w ∧
    Unprompted 0 (actsOf past) ∧
    w.result? 0 = some (.check (some (.upToDate ⟨"10.20.30", "10.20.30-10.20.30"⟩))) := by
  have hv : Version.Semantic.parse "10.20.30-10.20.30".toList =
      some ⟨10, 20, 30, ["10".toList, "20".toList, "30".toList], []⟩ := by decide +kernel
  have htag : [⟨"v10.20.30-10.20.30", "feedface00"⟩].find?
      (Version.Tag.isRelease Rehearsal.sample.excludedTagStart "feedface00") =
        some ⟨"v" ++ "10.20.30-10.20.30", "feedface00"⟩ := by decide +kernel
  have hcourse := Rehearsal.course_sequel
    (Rehearsal.scene (Rehearsal.released "v10.20.30-10.20.30") []).2 .checkForUpdates Rehearsal.looked
  obtain ⟨-, -, hunprompted, -⟩ := Course.release_recognised_iff hv htag
    (Rehearsal.run_scene (Rehearsal.released "v10.20.30-10.20.30") []) hcourse
    (answered_of_fits (by decide +kernel))
  exact ⟨_, _, hcourse, hunprompted (by decide +kernel) (by decide +kernel), by decide +kernel⟩

/-- A tool that was built from the release on the tip is taken for outdated: the user is offered what he has. -/
theorem release_taken_for_outdated :
    Version.Semantic.parse "1.2.3".toList = some ⟨1, 2, 3, [], []⟩ ∧
    [⟨"v1.2.3", "feedface00"⟩].find? (Version.Tag.isRelease Rehearsal.sample.excludedTagStart "feedface00") =
      some (⟨"v1.2.3", "feedface00"⟩ : Version.Tag) ∧
    ∃ past w,
      Course Rehearsal.Script.environment Rehearsal.sample
        ((Rehearsal.scene (Rehearsal.released "v1.2.3") []).2.called Rehearsal.sample .checkForUpdates) past w ∧
      Answered (tellsRelease "v1.2.3" "feedface00" [⟨"v1.2.3", "feedface00"⟩]) 0 past ∧
      ¬ Unprompted 0 (actsOf past) ∧
      w.result? 0 = some (.check (some (.declined ⟨"v1.2.3", "1.2.3"⟩))) := by
  refine ⟨by decide +kernel, by decide +kernel, _, _, Rehearsal.course_sequel
    (Rehearsal.scene (Rehearsal.released "v1.2.3") []).2 .checkForUpdates Rehearsal.ignored,
    answered_of_fits (by decide +kernel), by decide +kernel, by decide +kernel⟩

end Steward
