import Steward.Proofs.Exchanges
import Steward.Proofs.PromptRouting
import Steward.Proofs.TagResolution

/-!
# What an answer means

An answer to a menu is a number, a text or blank (`Choice.answer_cases`). A number means a position and nothing
else, a text is compared with the choices up to the case of ASCII letters, and `y` and `yes` mean the first choice
if none is called so. Numbers are told by their digits (`Text.Numeral`), not by the reader that turns them into
values.

On the terminal an answer is the line that was given to the prompt, whatever else came in. So the question before
an installation is followed by the install command just if that line agrees (`Choice.answer_understood`).
-/

set_option autoImplicit false

namespace Steward

/-! ## Numerals -/

namespace Text

/-- A numeral of that value: its digits, zeros in front of them if there are any, and perhaps a plus sign in
front of all. -/
def Numeral (n : Nat) (cs : List Char) : Prop :=
  ∃ sign zeros, (sign = [] ∨ sign = ['+']) ∧ cs = sign ++ (List.replicate zeros '0' ++ Nat.toDigits 10 n)

theorem isDigit_zeros_append (zeros n : Nat) :
    ∀ c ∈ List.replicate zeros '0' ++ Nat.toDigits 10 n, c.isDigit = true := by
  intro c hc
  rcases List.mem_append.1 hc with hc | hc
  · rw [List.eq_of_mem_replicate hc]
    rfl
  · exact Nat.isDigit_of_mem_toDigits (by decide) (by decide) hc

/-- Digits that are read from the start are the digits of the value, behind zeros. -/
theorem exists_zeros_of_digitsFrom {cs : List Char} {n : Nat} (hcs : cs ≠ []) (h : digitsFrom 10 0 cs = some n) :
    ∃ zeros, cs = List.replicate zeros '0' ++ Nat.toDigits 10 n := by
  induction cs with
  | nil => exact absurd rfl hcs
  | cons c cs ih =>
    obtain ⟨d, hc, hd, h⟩ := digitsFrom_cons_eq_some h
    rw [Nat.zero_mul, Nat.zero_add] at h
    have hchar := eq_digitChar hc hd
    rcases Nat.eq_zero_or_pos d with rfl | hpos
    · obtain rfl : c = '0' := hchar
      cases cs with
      | nil =>
        obtain rfl := Option.some.inj h
        exact ⟨0, rfl⟩
      | cons c' cs =>
        obtain ⟨zeros, hrest⟩ := ih (List.cons_ne_nil _ _) h
        exact ⟨zeros + 1, by rw [hrest, List.replicate_succ, List.cons_append]⟩
    · refine ⟨0, ?_⟩
      rw [toDigits_of_digitsFrom hpos h, Nat.toDigits_of_lt_base hd, ← hchar]
      rfl

theorem decimal?_eq_some_iff {cs : List Char} {n : Nat} :
    decimal? cs = some n ↔ ∃ zeros, cs = List.replicate zeros '0' ++ Nat.toDigits 10 n := by
  constructor
  · intro h
    cases cs with
    | nil => cases h
    | cons c cs => exact exists_zeros_of_digitsFrom (List.cons_ne_nil _ _) h
  · rintro ⟨zeros, rfl⟩
    rw [decimal?_of_isDigit (by simp) (isDigit_zeros_append zeros n), Nat.ofDigitChars_append,
      Nat.ofDigitChars_replicate_zero, Nat.mul_zero, Nat.ofDigitChars_ten_toDigits]

/-- **The reader of numerals accepts just the numerals**, up to the limit. -/
theorem numeral?_eq_some_iff {limit n : Nat} {cs : List Char} :
    numeral? limit cs = some n ↔ Numeral n cs ∧ n ≤ limit := by
  have bounded : ∀ o : Option Nat, (o.bind fun m => if m ≤ limit then some m else none) = some n ↔
      o = some n ∧ n ≤ limit := by
    intro o
    rw [Option.bind_eq_some_iff]
    constructor
    · rintro ⟨m, rfl, hm⟩
      obtain ⟨hle, rfl⟩ : m ≤ limit ∧ m = n := by simpa using hm
      exact ⟨rfl, hle⟩
    · rintro ⟨rfl, hle⟩
      exact ⟨n, rfl, if_pos hle⟩
  by_cases hplus : ∃ rest, cs = '+' :: rest
  · obtain ⟨rest, rfl⟩ := hplus
    have hread : numeral? limit ('+' :: rest) = (decimal? rest).bind fun m => if m ≤ limit then some m else none := by
      rw [numeral?]
      cases decimal? rest <;> rfl
    rw [hread, bounded, decimal?_eq_some_iff]
    refine and_congr_left fun _ => ⟨?_, ?_⟩
    · rintro ⟨zeros, rfl⟩
      exact ⟨['+'], zeros, .inr rfl, rfl⟩
    · rintro ⟨sign, zeros, rfl | rfl, heq⟩
      · cases isDigit_zeros_append zeros n '+' (heq ▸ List.mem_cons_self)
      · exact ⟨zeros, List.cons.inj heq |>.2⟩
  · have hread : numeral? limit cs = (decimal? cs).bind fun m => if m ≤ limit then some m else none := by
      unfold numeral?
      split
      · exact absurd ⟨_, rfl⟩ hplus
      · dsimp only
        cases decimal? cs <;> rfl
    rw [hread, bounded, decimal?_eq_some_iff]
    refine and_congr_left fun _ => ⟨?_, ?_⟩
    · rintro ⟨zeros, rfl⟩
      exact ⟨[], zeros, .inl rfl, rfl⟩
    · rintro ⟨sign, zeros, rfl | rfl, rfl⟩
      · exact ⟨zeros, rfl⟩
      · exact absurd ⟨_, rfl⟩ hplus

theorem Numeral.not_blank {n : Nat} {cs : List Char} (h : Numeral n cs) : ∀ c ∈ cs, isBlank c = false := by
  obtain ⟨sign, zeros, hsign, rfl⟩ := h
  intro c hc
  rcases List.mem_append.1 hc with hc | hc
  · rcases hsign with rfl | rfl
    · cases hc
    · rw [List.mem_singleton.1 hc]
      rfl
  · exact isBlank_of_isDigit (isDigit_zeros_append zeros n c hc)

theorem Numeral.ne_nil {n : Nat} {cs : List Char} (h : Numeral n cs) : cs ≠ [] := by
  obtain ⟨sign, zeros, -, rfl⟩ := h
  simp

/-- A numeral has one value. -/
theorem Numeral.unique {m n : Nat} {cs : List Char} (h : Numeral m cs) (h' : Numeral n cs) : m = n := by
  have hm := numeral?_eq_some_iff.2 ⟨h, Nat.le_max_left m n⟩
  have hn := numeral?_eq_some_iff.2 ⟨h', Nat.le_max_right m n⟩
  exact Option.some.inj (hm.symm.trans hn)

end Text

/-! ## Answers -/

namespace Choice

open Text (Numeral maxU64 sameAsciiCase)

variable {answer : String} {choices : List String}

/-- What an answer says, blanks around it left out. -/
abbrev word (answer : String) : List Char := Text.trim answer.toList

theorem pick_of_blank (h : word answer = []) : pick answer choices = none := by
  simp only [pick, h]
  rfl

/-- A number is a position, whatever the choices are called. -/
theorem pick_of_numeral {n : Nat} (h : Numeral n (word answer)) (hn : n ≤ maxU64) :
    pick answer choices = byNumber choices n := by
  have hread : Text.numeral? maxU64 (word answer) = some n := Text.numeral?_eq_some_iff.2 ⟨h, hn⟩
  have hne : (word answer).isEmpty = false := List.isEmpty_eq_false_iff.2 h.ne_nil
  simp only [pick, hne, hread]
  rfl

/-- Neither blank nor a number within bounds: the answer is taken for a text. -/
def IsText (answer : String) : Prop := word answer ≠ [] ∧ ∀ n, Numeral n (word answer) → maxU64 < n

theorem pick_of_isText (h : IsText answer) : pick answer choices =
    (choices.find? fun c => sameAsciiCase c.toList (word answer)).or
      (if isYes (word answer) then choices.head? else none) := by
  have hread : Text.numeral? maxU64 (word answer) = none := by
    cases hn : Text.numeral? maxU64 (word answer) with
    | none => rfl
    | some n =>
      obtain ⟨hnumeral, hle⟩ := Text.numeral?_eq_some_iff.1 hn
      exact absurd (h.2 n hnumeral) (Nat.not_lt.2 hle)
  have hne : (word answer).isEmpty = false := List.isEmpty_eq_false_iff.2 h.1
  simp only [pick, hne, hread]
  cases choices.find? fun c => sameAsciiCase c.toList (word answer) <;> rfl

/-- Every answer is blank, a number or a text. -/
theorem answer_cases (answer : String) :
    word answer = [] ∨ (∃ n, Numeral n (word answer) ∧ n ≤ maxU64) ∨ IsText answer := by
  by_cases hblank : word answer = []
  · exact .inl hblank
  · by_cases hnumber : ∃ n, Numeral n (word answer) ∧ n ≤ maxU64
    · exact .inr (.inl hnumber)
    · refine .inr (.inr ⟨hblank, fun n hn => ?_⟩)
      exact Nat.lt_of_not_le fun hle => hnumber ⟨n, hn, hle⟩

theorem byNumber_eq_some_iff {n : Nat} {c : String} :
    byNumber choices n = some c ↔ ∃ i, n = i + 1 ∧ choices[i]? = some c := by
  cases n with
  | zero => simp [byNumber]
  | succ i => simp [byNumber]

theorem byNumber_eq_none_iff {n : Nat} : byNumber choices n = none ↔ n = 0 ∨ choices.length < n := by
  cases n with
  | zero => simp [byNumber]
  | succ i => simp [byNumber, Nat.lt_succ_iff]

theorem mem_of_pick {c : String} (h : pick answer choices = some c) : c ∈ choices := by
  rcases answer_cases answer with hblank | ⟨n, hn, hle⟩ | htext
  · rw [pick_of_blank hblank] at h
    cases h
  · rw [pick_of_numeral hn hle] at h
    obtain ⟨i, -, hi⟩ := byNumber_eq_some_iff.1 h
    exact List.mem_of_getElem? hi
  · rw [pick_of_isText htext, Option.or_eq_some_iff] at h
    rcases h with h | ⟨-, h⟩
    · exact List.mem_of_find?_eq_some h
    · split at h
      · exact List.mem_of_head? h
      · cases h

/-- Of the choices that an answer spells, up to the case of ASCII letters, the first counts. -/
theorem pick_first (h : IsText answer) {before after : List String} {c : String}
    (hsame : sameAsciiCase c.toList (word answer) = true)
    (hbefore : ∀ b ∈ before, sameAsciiCase b.toList (word answer) = false) :
    pick answer (before ++ c :: after) = some c := by
  have hfind : (before ++ c :: after).find? (fun c => sameAsciiCase c.toList (word answer)) = some c :=
    List.find?_eq_some_iff_append.2 ⟨hsame, before, after, rfl, by simpa using hbefore⟩
  rw [pick_of_isText h, hfind]
  rfl

theorem pick_other (h : IsText answer) (hnone : ∀ c ∈ choices, sameAsciiCase c.toList (word answer) = false) :
    pick answer choices = if isYes (word answer) then choices.head? else none := by
  have hfind : choices.find? (fun c => sameAsciiCase c.toList (word answer)) = none :=
    List.find?_eq_none.2 (by simpa using hnone)
  rw [pick_of_isText h, hfind]
  rfl

/-! ## The question before an installation -/

/-- The answers that agree to an installation. -/
def Agrees (answer : String) : Prop :=
  Numeral 1 (word answer) ∨ sameAsciiCase (word answer) "install".toList = true ∨
    sameAsciiCase (word answer) "y".toList = true ∨ sameAsciiCase (word answer) "yes".toList = true

theorem sameAsciiCase_iff {a b : List Char} :
    sameAsciiCase a b = true ↔ Text.asciiLower a = Text.asciiLower b := by
  simp [sameAsciiCase]

/-- A number is no word. -/
theorem not_sameAsciiCase_of_numeral {n : Nat} {cs ds : List Char} {d : Char} (h : Numeral n cs)
    (hd : 57 < d.toLower.toNat) : sameAsciiCase cs (d :: ds) = false := by
  have hfront : ∃ c rest, cs = c :: rest ∧ (c = '+' ∨ c.isDigit = true) := by
    obtain ⟨c, rest, hcs⟩ := List.exists_cons_of_ne_nil h.ne_nil
    obtain ⟨sign, zeros, rfl | rfl, rfl⟩ := h
    · exact ⟨c, rest, hcs, .inr (Text.isDigit_zeros_append zeros n c (hcs ▸ List.mem_cons_self))⟩
    · exact ⟨'+', _, rfl, .inl rfl⟩
  obtain ⟨c, rest, rfl, hc⟩ := hfront
  have hlow : c.toLower.toNat ≤ 57 := by
    rcases hc with rfl | hc
    · decide
    · have := (Text.isDigit_iff c).1 hc
      have hupper : ¬ (c.val ≥ 'A'.val ∧ c.val ≤ 'Z'.val) := by
        rintro ⟨hle, -⟩
        have : 65 ≤ c.toNat := hle
        omega
      have hkept : c.toLower = c := dif_neg hupper
      rw [hkept]
      exact this.2
  refine Bool.eq_false_iff.2 fun hsame => ?_
  have hhead := (List.cons.inj (sameAsciiCase_iff.1 hsame)).1
  rw [← hhead] at hd
  omega

theorem agrees_iff_of_numeral {n : Nat} (hn : Numeral n (word answer)) : Agrees answer ↔ n = 1 := by
  have hwords : ∀ (d : Char) (ds : List Char), 57 < d.toLower.toNat →
      sameAsciiCase (word answer) (d :: ds) = false := fun _ _ => not_sameAsciiCase_of_numeral hn
  have hyes := hwords 'y' [] (by decide)
  have hyes' := hwords 'y' ['e', 's'] (by decide)
  have hinstall := hwords 'i' ['n', 's', 't', 'a', 'l', 'l'] (by decide)
  constructor
  · rintro (h | h | h | h)
    · exact hn.unique h
    · exact Bool.noConfusion (hinstall.symm.trans h)
    · exact Bool.noConfusion (hyes.symm.trans h)
    · exact Bool.noConfusion (hyes'.symm.trans h)
  · rintro rfl
    exact .inl hn

theorem agrees_iff_of_isText (htext : IsText answer) : Agrees answer ↔
    sameAsciiCase Tool.installChoice.toList (word answer) = true ∨ isYes (word answer) = true := by
  have hnumber : ¬ Numeral 1 (word answer) := fun h => absurd (htext.2 1 h) (by decide)
  have hsame : sameAsciiCase (word answer) "install".toList = true ↔
      sameAsciiCase Tool.installChoice.toList (word answer) = true := by
    have hlow : Text.asciiLower Tool.installChoice.toList = Text.asciiLower "install".toList := by
      decide +kernel
    rw [sameAsciiCase_iff, sameAsciiCase_iff, hlow]
    exact eq_comm
  rw [Agrees, or_iff_right hnumber, hsame, isYes, Bool.or_eq_true]
  rfl

/-- What cancels is no yes. -/
theorem not_isYes_of_cancel {w : List Char} (h : sameAsciiCase Tool.cancelChoice.toList w = true) :
    isYes w = false := by
  rw [isYes, sameAsciiCase, sameAsciiCase, ← sameAsciiCase_iff.1 h]
  decide +kernel

theorem pick_install_iff : pick answer [Tool.installChoice, Tool.cancelChoice] = some Tool.installChoice ↔
    Agrees answer := by
  rcases answer_cases answer with hblank | ⟨n, hn, hle⟩ | htext
  · rw [pick_of_blank hblank, Agrees, hblank]
    refine iff_of_false (Option.some_ne_none _).symm ?_
    rintro (hone | h | h | h)
    · exact hone.ne_nil rfl
    all_goals exact absurd h (by decide +kernel)
  · rw [pick_of_numeral hn hle, agrees_iff_of_numeral hn, byNumber_eq_some_iff]
    constructor
    · rintro ⟨i, rfl, hi⟩
      obtain _ | _ | i := i
      · rfl
      · exact absurd hi (by decide)
      · cases hi
    · rintro rfl
      exact ⟨0, rfl, rfl⟩
  · rw [agrees_iff_of_isText htext]
    by_cases hinstall : sameAsciiCase Tool.installChoice.toList (word answer) = true
    · exact iff_of_true (pick_first htext hinstall (List.forall_mem_nil _)) (.inl hinstall)
    · rw [or_iff_right hinstall]
      by_cases hcancel : sameAsciiCase Tool.cancelChoice.toList (word answer) = true
      · have hbefore : ∀ b ∈ [Tool.installChoice], sameAsciiCase b.toList (word answer) = false := by
          simpa using hinstall
        have hpick : pick answer ([Tool.installChoice] ++ [Tool.cancelChoice]) = some Tool.cancelChoice :=
          pick_first htext hcancel hbefore
        rw [List.singleton_append] at hpick
        rw [hpick, not_isYes_of_cancel hcancel]
        exact iff_of_false (by decide) Bool.false_ne_true
      · rw [pick_other htext (by simp [hinstall, hcancel])]
        cases isYes (word answer) <;> decide

end Choice

/-! ## The install command -/

namespace Tool

/-- How an installation begins where the host does not install by itself: the question is put on the terminal
under that number, and this is the reply. -/
def questioned (s : Service) (ticket : Nat) (reply : Option String) : List Exchange :=
  [⟨.query (.hostInstall true), none⟩,
    ⟨.query (.prompt .warning (installQuestion s) [installChoice, cancelChoice]), ticket⟩,
    ⟨.awaitPrompt ticket, reply⟩]

/-- The install command is among what was asked for. -/
def RunsInstall (s : Service) (l : List Exchange) : Prop :=
  ∃ job, ⟨.query (.command s.toolchain.program (s.toolchain.installArgs s.identity.source)), job⟩ ∈ l

variable {s : Service} {ticket : Nat} {reply : Option String} {l : List Exchange} {o : InstallOutcome}

/-- Behind the yes stands the install command, behind any other reply nothing. -/
theorem install_yields (h : (install s).Yields (questioned s ticket reply ++ l) o) :
    (reply = some installChoice ∧ RunsInstall s l) ∨ (reply ≠ some installChoice ∧ l = [] ∧ o = .cancelled) := by
  obtain ⟨byHost, l₁, heq, h⟩ := h
  cases heq
  obtain ⟨ticket, l₂, heq, h⟩ := h
  cases heq
  obtain ⟨reply, l₃, heq, h⟩ := h
  cases heq
  by_cases hyes : reply = some installChoice
  · subst hyes
    obtain ⟨job, l', heq, -⟩ := h
    have hl : l = _ := heq
    exact .inl ⟨rfl, job, hl ▸ List.mem_cons_self⟩
  · simp only [Program.bind, bne_iff_ne, ne_eq, hyes, not_false_eq_true, if_true] at h
    exact .inr ⟨hyes, h.1, h.2⟩

/-- There is a way on behind every reply. -/
theorem exists_install_yields (s : Service) (ticket : Nat) (reply : Option String) :
    ∃ l o, (install s).Yields (questioned s ticket reply ++ l) o := by
  by_cases hyes : reply = some installChoice
  · subst hyes
    -- the command cannot be run
    have hfailed : ∃ l o, (install s).Yields (questioned s ticket (some installChoice) ++
        ⟨.query (.command s.toolchain.program (s.toolchain.installArgs s.identity.source)), 0⟩ ::
          ⟨.awaitCommand 0, .error (.process "")⟩ :: l) o :=
      ⟨_, _, none, _, rfl, ticket, _, rfl, some installChoice, _, rfl, 0, _, rfl, .error (.process ""), _, rfl,
        (), _, rfl, rfl, rfl⟩
    obtain ⟨l, o, h⟩ := hfailed
    exact ⟨_, o, h⟩
  · refine ⟨[], .cancelled, none, _, rfl, ticket, _, rfl, reply, _, rfl, ?_⟩
    simp only [Program.bind, bne_iff_ne, ne_eq, hyes, not_false_eq_true, if_true]
    exact ⟨rfl, rfl⟩

end Tool

/-! ## The law of answers -/

/-- What comes to a fresh terminal is its past. -/
theorem Terminal.Comes.reflects {es : List Terminal.Event} {t : Terminal} (h : Terminal.Comes {} es t) :
    Terminal.Reflects es [] t := by
  induction h with
  | nothing => exact .start [] [] []
  | next e _ _ ih => exact ih.apply e

namespace Choice

open Text (Numeral maxU64 sameAsciiCase)

/-- What an answer to a menu means. -/
structure Understood (answer : String) (choices : List String) : Prop where
  /-- it picks nothing that was not offered -/
  offered : ∀ c, pick answer choices = some c → c ∈ choices
  /-- a number picks the choice that it counts -/
  numbered : ∀ i c, choices[i]? = some c → i + 1 ≤ maxU64 → Numeral (i + 1) (word answer) →
    pick answer choices = some c
  /-- any other number picks nothing, even if a choice is called so -/
  uncounted : ∀ n, Numeral n (word answer) → n ≤ maxU64 → n = 0 ∨ choices.length < n →
    pick answer choices = none
  /-- a text picks the first choice that it spells -/
  spelled : IsText answer → ∀ before c after, choices = before ++ c :: after →
    sameAsciiCase c.toList (word answer) = true →
    (∀ b ∈ before, sameAsciiCase b.toList (word answer) = false) → pick answer choices = some c
  /-- a text that spells none picks the first of all if it is a yes, and else nothing -/
  unspelled : IsText answer → (∀ c ∈ choices, sameAsciiCase c.toList (word answer) = false) →
    pick answer choices =
      if sameAsciiCase (word answer) "y".toList || sameAsciiCase (word answer) "yes".toList then choices.head?
      else none
  /-- an answer that says nothing picks nothing, even if a choice is empty -/
  blank : word answer = [] → pick answer choices = none

theorem word_padded {before behind w : List Char} (hbefore : ∀ c ∈ before, Text.isBlank c = true)
    (hbehind : ∀ c ∈ behind, Text.isBlank c = true) {n : Nat} (h : Numeral n w) :
    word (String.ofList (before ++ w ++ behind)) = w := by
  rw [word, String.toList_ofList]
  exact Text.trim_of_blanks hbefore hbehind h.not_blank

theorem numeral_toString (n : Nat) {sign : List Char} (hsign : sign = [] ∨ sign = ['+']) (zeros : Nat) :
    Numeral n (sign ++ (List.replicate zeros '0' ++ (toString n).toList)) := by
  rw [Nat.toString_eq_repr, Nat.toList_repr]
  exact ⟨sign, zeros, hsign, rfl⟩

theorem menu_eq (choices : List String) : menu choices = "  " ++ "  ".intercalate
    (choices.mapIdx fun i c => toString (i + 1) ++ ") " ++ c) ++ "  (anything else dismisses)" := by
  rw [menu, List.mapIdx_eq_zipIdx_map]
  rfl

/-- **What an answer means.** Take any answer and any choices.

* Numbers mean positions, texts the first choice that they spell, and a yes the first of all; nothing is picked
  that was not offered.
* The menu shows each choice behind its number. That number picks the choice, also with blanks around it and a plus
  sign or zeros in front. (No list in memory is longer than the largest number that is read.)
* Where the answer is the line that was given to the question before an installation, the install command is run
  just if it agrees: if it is the number one, or `install`, `y` or `yes` in any case. -/
theorem answer_understood (answer : String) (choices : List String) :
    Understood answer choices ∧
    menu choices = "  " ++ "  ".intercalate (choices.mapIdx fun i c => toString (i + 1) ++ ") " ++ c) ++
      "  (anything else dismisses)" ∧
    (∀ i c before sign zeros behind, choices[i]? = some c → i + 1 ≤ maxU64 →
      (∀ b ∈ before, Text.isBlank b = true) → sign = [] ∨ sign = ['+'] → (∀ b ∈ behind, Text.isBlank b = true) →
      pick (String.ofList (before ++ (sign ++ (List.replicate zeros '0' ++ (toString (i + 1)).toList)) ++ behind))
        choices = some c) ∧
    ∀ s es t ticket, Terminal.Comes {} es t →
      Terminal.choicesOf ticket es = [Tool.installChoice, Tool.cancelChoice] → answer ∈ Terminal.given ticket es →
      ∃ reply, t.reply? ticket = some reply ∧
        (∃ l o, (Tool.install s).Yields (Tool.questioned s ticket reply ++ l) o) ∧
        ∀ l o, (Tool.install s).Yields (Tool.questioned s ticket reply ++ l) o →
          (Tool.RunsInstall s l ↔ Agrees answer) := by
  refine ⟨?_, menu_eq choices, ?_, ?_⟩
  · constructor
    · exact fun c => mem_of_pick
    · intro i c hc hi hn
      rw [pick_of_numeral hn hi]
      exact hc
    · intro n hn hle hout
      rw [pick_of_numeral hn hle]
      exact byNumber_eq_none_iff.2 hout
    · rintro htext before c after rfl hsame hbefore
      exact pick_first htext hsame hbefore
    · intro htext hnone
      exact pick_other htext hnone
    · exact pick_of_blank
  · intro i c before sign zeros behind hc hi hbefore hsign hbehind
    have hn := numeral_toString (i + 1) hsign zeros
    rw [pick_of_numeral (by rwa [word_padded hbefore hbehind hn]) hi]
    exact hc
  · intro s es t ticket ht hchoices hline
    have hreply := ht.reflects.routed.answered ticket answer hline
    rw [hchoices] at hreply
    refine ⟨_, hreply, Tool.exists_install_yields s ticket _, fun l o h => ?_⟩
    rw [← pick_install_iff]
    rcases Tool.install_yields h with ⟨hyes, hruns⟩ | ⟨hno, rfl, -⟩
    · exact iff_of_true hruns hyes
    · exact iff_of_false (fun ⟨_, hmem⟩ => List.not_mem_nil hmem) hno

/-- The first choice is taken by its number, with everything around it that does not count. -/
theorem install_by_number : ∃ reply l o,
    (Tool.install Rehearsal.sample).Yields (Tool.questioned Rehearsal.sample 0 reply ++ l) o ∧
      Tool.RunsInstall Rehearsal.sample l := by
  obtain ⟨-, -, -, hinstall⟩ :=
    answer_understood (String.ofList "\t+01 ".toList) [Tool.installChoice, Tool.cancelChoice]
  have hasked : Terminal.Comes {} [.ask .warning "?" [Tool.installChoice, Tool.cancelChoice]] _ :=
    .next _ .nothing trivial
  have hcomes := hasked.next (.line "\t+01 ".toList) rfl
  obtain ⟨reply, -, ⟨l, o, h⟩, hruns⟩ := hinstall Rehearsal.sample _ _ 0 hcomes rfl (by decide +kernel)
  have hword : word (String.ofList "\t+01 ".toList) = "+01".toList := by decide +kernel
  refine ⟨reply, l, o, h, (hruns l o h).2 (.inl ?_)⟩
  rw [hword]
  exact ⟨['+'], 1, .inr rfl, by decide +kernel⟩

/-- A blank answer spells an empty choice, and yet it does not pick it. -/
theorem empty_choice_not_picked : ¬ ∀ (answer : String) (choices : List String),
    (∀ n, Numeral n (word answer) → maxU64 < n) → ∀ before c after, choices = before ++ c :: after →
      sameAsciiCase c.toList (word answer) = true →
      (∀ b ∈ before, sameAsciiCase b.toList (word answer) = false) → pick answer choices = some c := by
  intro h
  have hnumber : ∀ n, Numeral n (word "") → maxU64 < n := fun n hn => absurd rfl hn.ne_nil
  have hpick := h "" [""] hnumber [] "" [] rfl (by decide) (List.forall_mem_nil _)
  rw [pick_of_blank (by decide)] at hpick
  cases hpick

end Choice

end Steward
