import Mathlib.Data.List.Count
import Steward.Proofs.Encoding
import Steward.Proofs.TagResolution
import Steward.ServerCommand

/-!
# What a command is called

A command is called by its name or by its identifier, in letters of any case and with blanks around them. What is
read is put into small letters first, by the rules of Unicode, and then compared with names in ASCII.

No other letters get in that way. Whatever stands beyond ASCII has a small form that stands there too, at least in
part; only the Kelvin sign is a `k` (`Text.exists_foreign_lowerChar`), and there is none in what a command can be
called. So for these words the rules of Unicode come down to those of ASCII (`Text.lower_eq_iff`).
-/

set_option autoImplicit false

namespace Steward

/-! ## Small letters -/

namespace Text

/-- What is to hold of all ASCII characters can be tried out. -/
theorem forall_ascii {P : Char → Prop} (h : ∀ n < 128, P (Char.ofNat n)) {c : Char} (hc : c.toNat < 128) : P c := by
  have hn := h c.toNat hc
  rwa [Char.ofNat_toNat] at hn

theorem CaseRun.range_of_covers {r : CaseRun} {n : Nat} (h : r.covers n = true) : r.first ≤ n ∧ n ≤ r.last := by
  simp only [CaseRun.covers, Bool.and_eq_true, decide_eq_true_eq] at h
  exact h.1

/-- Where a run begins beyond ASCII it stays there, unless it is that of the Kelvin sign. -/
theorem lowerRuns_foreign : ∀ r ∈ lowerRuns, r.last < 128 ∨ r = ⟨8490, 8490, 1, -8383⟩ ∨
    128 ≤ r.first + r.shift ∧ (r.last + r.shift < 0xD800 ∨
      0xDFFF < r.first + r.shift ∧ r.last + r.shift < 0x110000) := by
  decide +kernel

/-- The small form of a character beyond ASCII has one too, or it is a `k`. -/
theorem exists_foreign_lowerChar {c : Char} (hc : 128 ≤ c.toNat) :
    ∃ d ∈ lowerChar c, 128 ≤ d.toNat ∨ d = 'k' := by
  unfold lowerChar
  split
  · exact ⟨Char.ofNat 0x307, by simp, .inl (by decide)⟩
  split
  · rename_i r hr
    have hcovers := List.find?_some hr
    obtain ⟨hfirst, hlast⟩ := CaseRun.range_of_covers hcovers
    refine ⟨_, List.mem_cons_self, ?_⟩
    rcases lowerRuns_foreign r (List.mem_of_find?_eq_some hr) with hascii | rfl | ⟨hlow, hhigh⟩
    · omega
    · -- one character alone is in the run
      have heq : c.toNat = 8490 := Nat.le_antisymm hlast hfirst
      right
      rw [heq]
      rfl
    · left
      rw [toNat_ofNat]
      · omega
      · unfold Nat.isValidChar
        omega
  · exact ⟨c, List.mem_cons_self, .inl hc⟩

/-- In ASCII only the capitals are in a run. -/
theorem find?_lowerRuns {c : Char} (hc : c.toNat < 128) :
    lowerRuns.find? (·.covers c.toNat) = [⟨65, 90, 1, 32⟩].find? (·.covers c.toNat) := by
  have hforeign : ∀ r ∈ lowerRuns.tail, 128 ≤ r.first := by decide +kernel
  have hrest : lowerRuns.tail.find? (·.covers c.toNat) = none := by
    refine List.find?_eq_none.2 fun r hr hcovers => ?_
    have hle := (CaseRun.range_of_covers hcovers).1
    have hfirst := hforeign r hr
    omega
  show List.find? _ (⟨65, 90, 1, 32⟩ :: lowerRuns.tail) = _
  rw [List.find?_cons, hrest]
  rfl

theorem lowerChar_of_ascii {c : Char} (hc : c.toNat < 128) : lowerChar c = [c.toLower] := by
  rw [lowerChar, find?_lowerRuns hc]
  apply forall_ascii _ hc
  decide +kernel

theorem toLower_of_foreign {c : Char} (hc : 128 ≤ c.toNat) : c.toLower = c := by
  have hval : ¬ (c.val ≥ 'A'.val ∧ c.val ≤ 'Z'.val) := by
    rintro ⟨-, hle⟩
    have hle : c.toNat ≤ 90 := UInt32.le_iff_toNat_le.1 hle
    omega
  exact dif_neg hval

/-- In an ASCII text no letter has to look at its neighbours. -/
theorem lowerFrom_of_ascii {cs : List Char} (h : ∀ c ∈ cs, c.toNat < 128) (before : List Char) :
    lowerFrom before cs = asciiLower cs := by
  induction cs generalizing before with
  | nil => rfl
  | cons c cs ih =>
    obtain ⟨hc, hcs⟩ := List.forall_mem_cons.1 h
    have hsigma : (c.toNat == 0x3A3) = false := beq_eq_false_iff_ne.2 (by omega)
    rw [lowerFrom, hsigma, ih hcs, lowerChar_of_ascii hc]
    rfl

/-- Small letters that are ASCII, and no `k`, were letters of ASCII before. -/
theorem ascii_of_lowerFrom {before cs : List Char} (h : ∀ d ∈ lowerFrom before cs, d.toNat < 128 ∧ d ≠ 'k') :
    ∀ c ∈ cs, c.toNat < 128 := by
  induction cs generalizing before with
  | nil => exact List.forall_mem_nil _
  | cons c cs ih =>
    rw [lowerFrom] at h
    refine List.forall_mem_cons.2 ⟨?_, ih fun d hd => h d (List.mem_append_right _ hd)⟩
    by_contra hforeign
    have hsmall := fun d hd => h d (List.mem_append_left _ hd)
    split at hsmall
    · -- a sigma is one wherever it stands
      have hsigma := (hsmall _ (List.mem_singleton_self _)).1
      split at hsigma <;> exact absurd hsigma (by decide)
    · obtain ⟨d, hd, hout⟩ := exists_foreign_lowerChar (Nat.le_of_not_lt hforeign)
      obtain ⟨hlow, hk⟩ := hsmall d hd
      exact hout.elim (Nat.not_le_of_lt hlow) hk

theorem ascii_of_asciiLower {cs : List Char} (h : ∀ d ∈ asciiLower cs, d.toNat < 128) :
    ∀ c ∈ cs, c.toNat < 128 := by
  intro c hc
  by_contra hforeign
  have hsmall := h c.toLower (List.mem_map_of_mem hc)
  rw [toLower_of_foreign (Nat.le_of_not_lt hforeign)] at hsmall
  exact hforeign hsmall

/-- Where the small form is in ASCII, and without a `k`, the rules of ASCII give the same. -/
theorem lower_eq_iff {cs w : List Char} (hw : ∀ d ∈ w, d.toNat < 128 ∧ d ≠ 'k') :
    lower cs = w ↔ asciiLower cs = w := by
  constructor
  · rintro rfl
    exact (lowerFrom_of_ascii (ascii_of_lowerFrom hw) []).symm
  · rintro rfl
    exact lowerFrom_of_ascii (ascii_of_asciiLower fun d hd => (hw d hd).1) []

/-- In ASCII no blank is the other case of something else. -/
theorem isBlank_toLower {c : Char} (hc : c.toNat < 128) : isBlank c.toLower = isBlank c :=
  forall_ascii (P := fun c => isBlank c.toLower = isBlank c) (by decide +kernel) hc

end Text

/-! ## Names and identifiers -/

namespace ServerCommand

open Text

/-- The text calls the command by its name or by its identifier, up to the case of ASCII letters. -/
def Denotes (text : List Char) (c : ServerCommand) : Prop :=
  sameAsciiCase text c.display.toList = true ∨ sameAsciiCase text c.id.toList = true

instance (text : List Char) (c : ServerCommand) : Decidable (Denotes text c) := inferInstanceAs (Decidable (_ ∨ _))

variable {c : ServerCommand} {text : List Char}

/-- A name or an identifier is in ASCII, without a `k` and without blanks. -/
theorem plain_of_name {w : List Char} (h : w = c.display.toList ∨ w = c.id.toList) :
    ∀ d ∈ w, (d.toNat < 128 ∧ d ≠ 'k') ∧ isBlank d = false := by
  have hall : w.all (fun d => d.toNat < 128 && d != 'k' && !isBlank d) = true := by
    rcases h with rfl | rfl <;> cases c <;> rfl
  simpa using hall

/-- Names and identifiers are in small letters, so being the same as them is to have them as small form. -/
theorem denotes_iff_asciiLower :
    Denotes text c ↔ asciiLower text = c.display.toList ∨ asciiLower text = c.id.toList := by
  have hdisplay : asciiLower c.display.toList = c.display.toList := by cases c <;> rfl
  have hid : asciiLower c.id.toList = c.id.toList := by cases c <;> rfl
  rw [Denotes, sameAsciiCase, sameAsciiCase, beq_iff_eq, beq_iff_eq, hdisplay, hid]

theorem denotes_iff_lower : Denotes text c ↔ lower text = c.display.toList ∨ lower text = c.id.toList := by
  rw [denotes_iff_asciiLower, lower_eq_iff fun d hd => (plain_of_name (.inl rfl) d hd).1,
    lower_eq_iff fun d hd => (plain_of_name (.inr rfl) d hd).1]

/-- What calls a command is in ASCII. -/
theorem Denotes.ascii (h : Denotes text c) : ∀ d ∈ text, d.toNat < 128 :=
  ascii_of_asciiLower fun d hd => (plain_of_name (denotes_iff_asciiLower.1 h) d hd).1.1

theorem Denotes.not_blank (h : Denotes text c) : ∀ d ∈ text, isBlank d = false := by
  intro d hd
  have hsmall : d.toLower ∈ asciiLower text := List.mem_map_of_mem hd
  rw [← isBlank_toLower (h.ascii d hd)]
  exact (plain_of_name (denotes_iff_asciiLower.1 h) _ hsmall).2

/-! ## What is compared -/

theorem ofName?_eq_some_iff {name : List Char} : ofName? name = some c ↔ name = c.display.toList := by
  constructor
  · intro h
    have hname := List.find?_some h
    exact (beq_iff_eq.1 hname).symm
  · rintro rfl
    cases c <;> decide +kernel

/-- The beginning of an identifier is taken away once, and no name begins that way. -/
theorem bare_eq_display_iff {word : List Char} :
    (dropFront idStart.toList word).getD word = c.display.toList ↔
      word = c.display.toList ∨ word = c.id.toList := by
  have hid : c.id.toList = idStart.toList ++ c.display.toList := String.toList_append
  cases hfront : dropFront idStart.toList word with
  | none =>
    have hother : word ≠ c.id.toList := by
      rintro rfl
      have hrest := List.isPrefixOf?_eq_some_iff_append_eq.2 hid.symm
      exact absurd (hfront.symm.trans hrest) nofun
    rw [Option.getD_none, or_iff_left hother]
  | some rest =>
    have hword : idStart.toList ++ rest = word := List.isPrefixOf?_eq_some_iff_append_eq.1 hfront
    have hother : word ≠ c.display.toList := by
      have hnone : dropFront idStart.toList c.display.toList = none := by cases c <;> decide +kernel
      rintro rfl
      exact absurd (hfront.symm.trans hnone) nofun
    rw [Option.getD_some, or_iff_right hother, ← hword, hid, List.append_cancel_left_eq]

/-- What is looked up among the names is that of the command which the text calls. -/
theorem denotes_iff_ofName? :
    Denotes text c ↔ ofName? ((dropFront idStart.toList (lower text)).getD (lower text)) = some c := by
  rw [ofName?_eq_some_iff, bare_eq_display_iff, denotes_iff_lower]

theorem Denotes.unique {d : ServerCommand} (hc : Denotes text c) (hd : Denotes text d) : c = d :=
  Option.some.inj ((denotes_iff_ofName?.1 hc).symm.trans (denotes_iff_ofName?.1 hd))

theorem parse_eq_ok_iff {s : String} : parse s = .ok c ↔ Denotes (trim s.toList) c := by
  rw [denotes_iff_ofName?, parse]
  split <;> simp_all

/-- What calls no command is answered with the word that was looked up among the names. -/
theorem exists_unknown {s : String} (h : ∀ c, ¬ Denotes (trim s.toList) c) :
    ∃ word : String, parse s = .error ⟨word⟩ ∧
      (lower (trim s.toList) = word.toList ∨ lower (trim s.toList) = idStart.toList ++ word.toList) ∧
        Unknown.failure ⟨word⟩ = .host ("Unknown command '" ++ word ++ "'") := by
  cases hname : ofName? ((dropFront idStart.toList (lower (trim s.toList))).getD (lower (trim s.toList))) with
  | some c => exact absurd (denotes_iff_ofName?.2 hname) (h c)
  | none =>
    refine ⟨_, by rw [parse, hname], ?_, rfl⟩
    rw [String.toList_ofList]
    cases hfront : dropFront idStart.toList (lower (trim s.toList)) with
    | none => exact .inl rfl
    | some rest => exact .inr (List.isPrefixOf?_eq_some_iff_append_eq.1 hfront).symm

/-- **A command is read exactly where its name or its identifier stands between blanks.** Their letters may be of
either case, but they are letters of ASCII. Anything else is an error of the host, and nothing calls two
commands. -/
theorem parse_grammar :
    (∀ (s : String) (c : ServerCommand), parse s = .ok c ↔ Denotes (trim s.toList) c) ∧
      (∀ s : String, (∀ c, ¬ Denotes (trim s.toList) c) → ∃ word : String, parse s = .error ⟨word⟩ ∧
        (lower (trim s.toList) = word.toList ∨ lower (trim s.toList) = idStart.toList ++ word.toList) ∧
          Unknown.failure ⟨word⟩ = .host ("Unknown command '" ++ word ++ "'")) ∧
      (∀ (text : List Char) (c : ServerCommand), (∃ d ∈ text, 128 ≤ d.toNat) → ¬ Denotes text c) ∧
      (∀ (before text behind : List Char) (c : ServerCommand), (∀ d ∈ before, isBlank d = true) →
        (∀ d ∈ behind, isBlank d = true) → Denotes text c → parse (String.ofList (before ++ text ++ behind)) = .ok c) ∧
      ∀ (text : List Char) (c d : ServerCommand), Denotes text c → Denotes text d → c = d := by
  refine ⟨fun s c => parse_eq_ok_iff, fun s => exists_unknown, fun text c hforeign h => ?_,
    fun before text behind c hbefore hbehind h => ?_, fun text c d => Denotes.unique⟩
  · obtain ⟨d, hd, hout⟩ := hforeign
    exact Nat.not_le_of_lt (h.ascii d hd) hout
  · rw [parse_eq_ok_iff, String.toList_ofList, trim_of_blanks hbefore hbehind h.not_blank]
    exact h

theorem parse_grammar_padded :
    parse "\u2003Go-MCP-Server.ReStart\t" = .ok .restart ∧
      ∃ word : String, parse "ſtop" = .error ⟨word⟩ ∧
        Unknown.failure ⟨word⟩ = .host ("Unknown command '" ++ word ++ "'") := by
  have hread := parse_grammar.2.2.2.1 [Char.ofNat 0x2003] "Go-MCP-Server.ReStart".toList ['\t'] .restart
    (List.forall_mem_singleton.2 rfl) (List.forall_mem_singleton.2 rfl) (by decide +kernel)
  obtain ⟨word, hparse, -, hfailure⟩ := parse_grammar.2.1 "ſtop" fun c => by cases c <;> decide +kernel
  exact ⟨hread, word, hparse, hfailure⟩

end ServerCommand

end Steward
