import Mathlib.Tactic.SplitIfs
import Steward.Toml.Printer
import Steward.Toml.Token

/-!
# Quoted texts are scanned back

A text is written in one of four forms. Whatever the form, the scanner makes one token of it that holds
the same characters (`scans_quote`). The two basic forms can hold every text, because they escape; the
other two are picked only for texts that they can hold as they are.
-/

set_option autoImplicit false

namespace Steward.Toml

/-! ## Scanning a piece of a document -/

/-- The characters lead from one mode to another and complete the tokens. -/
inductive Scans : Mode → List Char → List Token → Mode → Prop
  | nil (m : Mode) : Scans m [] [] m
  | cons {m m' m'' : Mode} {c : Char} {cs : List Char} {ts us : List Token} :
      m.next c = some (ts, m') → Scans m' cs us m'' → Scans m (c :: cs) (ts ++ us) m''

namespace Scans

variable {m m' m'' : Mode} {cs ds : List Char} {ts us : List Token}

theorem single {c : Char} (h : m.next c = some (ts, m')) : Scans m [c] ts m' := by
  have := Scans.cons h (.nil m')
  rwa [List.append_nil] at this

/-- A character that completes no token. -/
theorem pass {c : Char} (h : m.next c = some ([], m')) (h' : Scans m' cs ts m'') :
    Scans m (c :: cs) ts m'' :=
  .cons h h'

theorem append (h : Scans m cs ts m') (h' : Scans m' ds us m'') :
    Scans m (cs ++ ds) (ts ++ us) m'' := by
  induction h with
  | nil => exact h'
  | cons hnext _ ih =>
    rw [List.cons_append, List.append_assoc]
    exact .cons hnext (ih h')

/-- A piece that completes no token is put in front without a trace. -/
theorem quiet (h : Scans m cs [] m') (h' : Scans m' ds us m'') : Scans m (cs ++ ds) us m'' :=
  h.append h'

theorem scanFrom (h : Scans m cs ts m') (hf : m'.finish = some us) (done : List Token) :
    Toml.scanFrom m done cs = some (done.reverse ++ ts ++ us) := by
  induction h generalizing done with
  | nil m => simp [Toml.scanFrom, hf]
  | cons hnext _ ih => simp [Toml.scanFrom, hnext, ih hf]

theorem uncons {c : Char} (h : Scans m (c :: cs) ts m'') :
    ∃ us vs m', ts = us ++ vs ∧ m.next c = some (us, m') ∧ Scans m' cs vs m'' := by
  cases h with
  | cons hnext hrest => exact ⟨_, _, _, rfl, hnext, hrest⟩

/-- Modes that go the same way on a character go the same way on all that begins with it. -/
theorem of_next_eq {c : Char} (hc : m.next c = m'.next c) (h : Scans m' (c :: cs) ts m'') :
    Scans m (c :: cs) ts m'' := by
  cases h with
  | cons hnext hrest => exact .cons (hc.trans hnext) hrest

end Scans

/-! ## Characters that stand for themselves -/

theorem isPrintable_of_not_isControl {c : Char} (h : isControl c = false) (hn : c ≠ '\n') :
    Mode.isPrintable c = true := by
  simp only [isControl, Bool.or_eq_false_iff, Bool.and_eq_false_iff, decide_eq_false_iff_not,
    bne_eq_false_iff_eq, beq_eq_false_iff_ne] at h
  simp only [Mode.isPrintable, Bool.or_eq_true, Bool.and_eq_true, beq_iff_eq, decide_eq_true_eq,
    bne_iff_ne]
  rcases h.1 with (hlow | htab) | hnewline
  · exact .inr ⟨by omega, h.2⟩
  · exact .inl htab
  · exact absurd hnewline hn

theorem no_escape {q : Quote} {c : Char} (hs : q = .basic → c ≠ '\\') :
    (c == '\\' && q == .basic) = false := by
  simp only [Bool.and_eq_false_iff, beq_eq_false_iff_ne]
  by_cases h : q = .basic
  · exact .inl (hs h)
  · exact .inr h

theorem next_line {q : Quote} {c : Char} (hq : c ≠ q.char) (hs : q = .basic → c ≠ '\\')
    (hp : Mode.isPrintable c = true) (chars : List Char) :
    (Mode.line q chars).next c = some ([], .line q (c :: chars)) := by
  simp [Mode.next, Mode.inLine, hq, no_escape hs, hp]

/-- Up to two quotes in a three-quote text are content. -/
theorem next_block {q : Quote} {c : Char} (hq : c ≠ q.char) {quotes : Nat} (h : quotes ≤ 2)
    (chars : List Char) : (Mode.block q chars quotes false).next c =
      Mode.inBlock q (Mode.withQuotes q quotes chars) false c := by
  match quotes, h with
  | 0, _ => rfl
  | 1, _ => simp [Mode.next, hq]
  | 2, _ => simp [Mode.next, hq]

theorem next_block_quote {q : Quote} {quotes : Nat} (h : quotes < 2) (chars : List Char) :
    (Mode.block q chars quotes false).next q.char = some ([], .block q chars (quotes + 1) false) := by
  match quotes, h with
  | 0, _ => simp [Mode.next, Mode.inBlock]
  | 1, _ => simp [Mode.next]

theorem inBlock_plain {q : Quote} {c : Char} (hq : c ≠ q.char) (hs : q = .basic → c ≠ '\\')
    (hc : isControl c = false) (chars : List Char) :
    Mode.inBlock q chars false c = some ([], .block q (c :: chars) 0 false) := by
  have hreturn : c ≠ '\r' := by
    rintro rfl
    exact nomatch hc
  by_cases hn : c = '\n'
  · simp [Mode.inBlock, hn, hn ▸ hq]
  · simp [Mode.inBlock, hq, no_escape hs, hn, hreturn, isPrintable_of_not_isControl hc hn]

/-! ## Escapes -/

theorem hexDigit?_toUpper {d : Nat} (h : d < 16) :
    Text.hexDigit? d.digitChar.toUpper = some d := by
  have table : ∀ d : Fin 16, Text.hexDigit? d.val.digitChar.toUpper = some d.val := by decide
  exact table ⟨d, h⟩

theorem toList_hexUpper {n : Nat} (h : n < 128) : (Text.hexUpper 4 n).toList =
    ['0', '0', (n / 16).digitChar.toUpper, (n % 16).digitChar.toUpper] := by
  have table : ∀ n : Fin 128, (Text.hexUpper 4 n.val).toList =
      ['0', '0', (n.val / 16).digitChar.toUpper, (n.val % 16).digitChar.toUpper] := by decide +kernel
  exact table ⟨n, h⟩

/-- A control character is written by its number in four digits. -/
theorem scans_hexUpper {c : Char} (h : c.toNat < 128) (long : Bool) (chars : List Char) :
    Scans (.hex long chars 4 0) (Text.hexUpper 4 c.toNat).toList [] (Mode.resume long (c :: chars)) := by
  have hhigh := hexDigit?_toUpper (show c.toNat / 16 < 16 by omega)
  have hlow := hexDigit?_toUpper (show c.toNat % 16 < 16 by omega)
  have hvalue : c.toNat / 16 * 16 + c.toNat % 16 = c.toNat := by omega
  have hscalar : Mode.isScalar c.toNat = true := by
    simp only [Mode.isScalar, Bool.or_eq_true, decide_eq_true_eq]
    exact .inl (by omega)
  rw [toList_hexUpper h]
  have hnext : (Mode.hex long chars 2 0).next (c.toNat / 16).digitChar.toUpper =
      some ([], .hex long chars 1 (c.toNat / 16)) := by
    simp [Mode.next, hhigh]
  have hlast : (Mode.hex long chars 1 (c.toNat / 16)).next (c.toNat % 16).digitChar.toUpper =
      some ([], Mode.resume long (c :: chars)) := by
    simp [Mode.next, hlow, hvalue, hscalar, Char.ofNat_toNat]
  have hzero (left : Nat) : (Mode.hex long chars (left + 2) 0).next '0' =
      some ([], .hex long chars (left + 1) 0) := rfl
  exact .pass (hzero 2) (.pass (hzero 1) (.pass hnext (.single hlast)))

/-- What an escape puts behind its backslash. -/
theorem scans_escape {long : Bool} {c : Char} {e : List Char} (h : escape? long c = some e)
    (chars : List Char) :
    ∃ e', e = '\\' :: e' ∧ Scans (.escape long chars) e' [] (Mode.resume long (c :: chars)) := by
  unfold escape? at h
  split at h
  case h_3 =>
    -- a newline needs no escape in a block
    cases long with
    | true => exact nomatch h
    | false =>
      cases h
      exact ⟨_, rfl, .single rfl⟩
  case h_7 =>
    split at h
    · rename_i hcontrol
      cases h
      have hlt : c.toNat < 128 := by
        simp only [isControl, Bool.or_eq_true, Bool.and_eq_true, decide_eq_true_eq, beq_iff_eq]
          at hcontrol
        omega
      exact ⟨_, rfl, .pass rfl (scans_hexUpper hlt long chars)⟩
    · exact nomatch h
  all_goals
    cases h
    exact ⟨_, rfl, .single rfl⟩

theorem plain_of_escape? {long : Bool} {c : Char} (h : escape? long c = none) :
    c ≠ '\\' ∧ isControl c = false ∧ (long = false → c ≠ '\n') := by
  unfold escape? at h
  split at h
  case h_3 =>
    cases long with
    | true => exact ⟨by decide, rfl, by simp⟩
    | false => exact nomatch h
  case h_7 hslash =>
    split at h
    · exact nomatch h
    · simp_all
  all_goals exact nomatch h

/-! ## Contents -/

theorem scans_escaped_line (cs chars : List Char) :
    Scans (.line .basic chars) (escaped false 0 cs) [] (.line .basic (cs.reverse ++ chars)) := by
  induction cs generalizing chars with
  | nil => exact .nil _
  | cons c cs ih =>
    have hrest := ih (c :: chars)
    rw [List.reverse_cons, List.append_assoc]
    rw [escaped]
    by_cases hquote : c = '"'
    · subst hquote
      exact .pass rfl (.pass rfl hrest)
    · rw [if_neg (by simpa using hquote)]
      cases hescape : escape? false c with
      | some e =>
        obtain ⟨e', rfl, he'⟩ := scans_escape hescape chars
        exact .pass rfl (he'.quiet hrest)
      | none =>
        obtain ⟨hslash, hcontrol, hnewline⟩ := plain_of_escape? hescape
        have hprintable := isPrintable_of_not_isControl hcontrol (hnewline rfl)
        exact .pass (next_line hquote (fun _ => hslash) hprintable chars) hrest

theorem scans_literal_line {cs : List Char} (hcontrol : ∀ c ∈ cs, isControl c = false)
    (hquote : '\'' ∉ cs) (hnewline : '\n' ∉ cs) (chars : List Char) :
    Scans (.line .literal chars) cs [] (.line .literal (cs.reverse ++ chars)) := by
  induction cs generalizing chars with
  | nil => exact .nil _
  | cons c cs ih =>
    simp only [List.mem_cons, not_or, forall_eq_or_imp] at hcontrol hquote hnewline
    have hprintable := isPrintable_of_not_isControl hcontrol.1 (Ne.symm hnewline.1)
    have hne : c ≠ Quote.literal.char := Ne.symm hquote.1
    have hnext := next_line hne (by simp) hprintable chars
    rw [List.reverse_cons, List.append_assoc]
    exact .pass hnext (ih hcontrol.2 hquote.2 hnewline.2 (c :: chars))

/-- A three-quote text in the middle of its content: the characters `read`, last first, of which up to
two quotes at the end are still pending. -/
inductive Within (q : Quote) (read : List Char) : Mode → Prop
  | mk (chars : List Char) (quotes : Nat) : quotes ≤ 2 → Mode.withQuotes q quotes chars = read →
      Within q read (.block q chars quotes false)

theorem Within.plain {q : Quote} {read : List Char} {m : Mode} (h : Within q read m) {c : Char}
    (hq : c ≠ q.char) (hs : q = .basic → c ≠ '\\') (hc : isControl c = false) :
    m.next c = some ([], .block q (c :: read) 0 false) := by
  cases h with
  | mk chars quotes hle hread => rw [next_block hq hle, hread, inBlock_plain hq hs hc]

theorem scans_escaped_block (cs chars : List Char) (quotes : Nat) (h : quotes ≤ 2) :
    ∃ m, Within .basic (cs.reverse ++ Mode.withQuotes .basic quotes chars) m ∧
      Scans (.block .basic chars quotes false) (escaped true quotes cs) [] m := by
  induction cs generalizing chars quotes with
  | nil => exact ⟨_, .mk chars quotes h rfl, .nil _⟩
  | cons c cs ih =>
    have hread : Within .basic (Mode.withQuotes .basic quotes chars) (.block .basic chars quotes false) :=
      .mk chars quotes h rfl
    obtain ⟨m, hm, hrest⟩ := ih (c :: Mode.withQuotes .basic quotes chars) 0 (by omega)
    have hescape : (Mode.block .basic chars quotes false).next '\\' =
        some ([], .escape true (Mode.withQuotes .basic quotes chars)) := by
      rw [next_block (by decide) h]
      rfl
    rw [List.reverse_cons, List.append_assoc, escaped]
    by_cases hquote : c = '"'
    · subst hquote
      by_cases htwo : 2 ≤ quotes
      · -- the third quote in a row is escaped
        simp only [beq_self_eq_true, if_true, htwo]
        exact ⟨m, hm, .pass hescape (.pass rfl hrest)⟩
      · have hlt : quotes < 2 := by omega
        simp only [beq_self_eq_true, if_true, htwo, if_false]
        obtain ⟨m, hm, hrest⟩ := ih chars (quotes + 1) (by omega)
        exact ⟨m, hm, .pass (next_block_quote hlt chars) hrest⟩
    · rw [if_neg (by simpa using hquote)]
      cases he : escape? true c with
      | some e =>
        obtain ⟨e', rfl, he'⟩ := scans_escape he (Mode.withQuotes .basic quotes chars)
        exact ⟨m, hm, .pass hescape (he'.quiet hrest)⟩
      | none =>
        obtain ⟨hslash, hcontrol, -⟩ := plain_of_escape? he
        exact ⟨m, hm, .pass (hread.plain hquote (fun _ => hslash) hcontrol) hrest⟩

theorem le_longestRun (c : Char) (current best : Nat) (cs : List Char) :
    best ≤ longestRun c current best cs := by
  induction cs generalizing current best with
  | nil => exact Nat.le_refl _
  | cons d ds ih =>
    rw [longestRun]
    split
    · exact Nat.le_trans (Nat.le_max_left ..) (ih _ _)
    · exact ih _ _

theorem scans_literal_block {cs : List Char} (hcontrol : ∀ c ∈ cs, isControl c = false)
    (chars : List Char) (quotes best : Nat) (h : quotes ≤ 2) (hrun : longestRun '\'' quotes best cs ≤ 2) :
    ∃ m, Within .literal (cs.reverse ++ Mode.withQuotes .literal quotes chars) m ∧
      Scans (.block .literal chars quotes false) cs [] m := by
  induction cs generalizing chars quotes best with
  | nil => exact ⟨_, .mk chars quotes h rfl, .nil _⟩
  | cons c cs ih =>
    simp only [List.mem_cons, forall_eq_or_imp] at hcontrol
    rw [List.reverse_cons, List.append_assoc]
    rw [longestRun] at hrun
    by_cases hquote : c = '\''
    · subst hquote
      rw [if_pos (by rfl)] at hrun
      have hlt : quotes < 2 := by
        have := le_longestRun '\'' (quotes + 1) (max best (quotes + 1)) cs
        omega
      obtain ⟨m, hm, hrest⟩ := ih hcontrol.2 chars (quotes + 1) _ (by omega) hrun
      exact ⟨m, hm, .pass (next_block_quote hlt chars) hrest⟩
    · rw [if_neg (by simpa using hquote)] at hrun
      have hread : Within .literal (Mode.withQuotes .literal quotes chars)
          (.block .literal chars quotes false) := .mk chars quotes h rfl
      obtain ⟨m, hm, hrest⟩ :=
        ih hcontrol.2 (c :: Mode.withQuotes .literal quotes chars) 0 best (by omega) hrun
      exact ⟨m, hm, .pass (hread.plain hquote (by simp) hcontrol.1) hrest⟩

/-! ## Whole texts -/

theorem next_idle_newline : Mode.idle.next '\n' = some ([.newline], .idle) := rfl

/-- A text between single quotes, behind a blank and at the end of a line. -/
theorem scans_line {q : Quote} {content chars : List Char}
    (h : Scans (.line q []) content [] (.line q chars)) :
    Scans .blank (q.char :: (content ++ [q.char, '\n']))
      [.blank, Mode.textOf false chars, .newline] .idle := by
  have hopen : Mode.blank.next q.char = some ([.blank], .opened q 1) := by cases q <;> rfl
  have hclose (chars : List Char) : (Mode.line q chars).next q.char =
      some ([Mode.textOf false chars], .idle) := by simp [Mode.next, Mode.inLine]
  refine .cons hopen ?_
  cases content with
  | nil =>
    -- two quotes in a row might have opened a block
    cases h
    have htwo : (Mode.opened q 1).next q.char = some ([], .opened q 2) := by simp [Mode.next]
    have hend : (Mode.opened q 2).next '\n' = some ([Mode.textOf false [], .newline], .idle) := by
      cases q <;> rfl
    exact .pass htwo (.single hend)
  | cons c content =>
    have hne : c ≠ q.char := by
      rintro rfl
      obtain ⟨us, vs, m, hnil, hnext, -⟩ := h.uncons
      rw [hclose] at hnext
      cases hnext
      exact nomatch hnil
    exact .of_next_eq (by simp [Mode.next, hne]) (h.quiet (.cons (hclose chars) (.single next_idle_newline)))

theorem scans_block_close {q : Quote} {read : List Char} {m : Mode} (h : Within q read m) :
    Scans m [q.char, q.char, q.char, '\n'] [Mode.textOf true read, .newline] .idle := by
  cases h with
  | mk chars quotes hle hread =>
    subst hread
    match quotes, hle with
    | 0, _ => cases q <;> exact .pass rfl (.pass rfl (.pass rfl (.single rfl)))
    | 1, _ => cases q <;> exact .pass rfl (.pass rfl (.pass rfl (.single rfl)))
    | 2, _ =>
      -- the fifth quote ends the text at once
      have hfifth : (Mode.block q chars 4 false).next q.char =
          some ([Mode.textOf true (Mode.withQuotes q 2 chars)], .idle) := by simp [Mode.next]
      cases q <;> exact .pass rfl (.pass rfl (.cons hfifth (.single next_idle_newline)))

/-- A line break right behind the opening quotes is no content, and other characters do not mind being
the first. -/
theorem scans_block_open {q : Quote} {content : List Char} {ts : List Token} {m : Mode}
    (h : Scans (.block q [] 0 false) content ts m) (hne : content ≠ []) (newline : Bool)
    (hfirst : newline = false → ∀ c ∈ content.head?, c ≠ '\n' ∧ c ≠ '\r') :
    Scans .blank (q.char :: q.char :: q.char :: ((if newline then ['\n'] else []) ++ content))
      (.blank :: ts) m := by
  have hblank : Mode.blank.next q.char = some ([.blank], .opened q 1) := by cases q <;> rfl
  have htwo : (Mode.opened q 1).next q.char = some ([], .opened q 2) := by simp [Mode.next]
  have hthree : (Mode.opened q 2).next q.char = some ([], .block q [] 0 true) := by simp [Mode.next]
  refine .cons hblank (.pass htwo (.pass hthree ?_))
  cases newline with
  | true =>
    have hskip : (Mode.block q [] 0 true).next '\n' = some ([], .block q [] 0 false) := by
      cases q <;> rfl
    exact .pass hskip h
  | false =>
    obtain ⟨c, content, rfl⟩ := List.exists_cons_of_ne_nil hne
    obtain ⟨hn, hr⟩ := hfirst rfl c rfl
    refine .of_next_eq ?_ h
    simp [Mode.next, Mode.inBlock, hn, hr]

theorem head_escaped_block {cs : List Char} (h : '\n' ∉ cs) (rest : List Char) :
    ∀ c ∈ (escaped true 0 cs ++ '"' :: rest).head?, c ≠ '\n' ∧ c ≠ '\r' := by
  intro c hc
  cases cs with
  | nil =>
    cases hc
    decide
  | cons d ds =>
    rw [escaped] at hc
    by_cases hquote : d = '"'
    · subst hquote
      cases hc
      decide
    · rw [if_neg (by simpa using hquote)] at hc
      cases he : escape? true d with
      | some e =>
        obtain ⟨e', rfl, -⟩ := scans_escape he []
        rw [he] at hc
        cases hc
        decide
      | none =>
        rw [he] at hc
        cases hc
        refine ⟨fun hd => h (hd ▸ List.mem_cons_self), ?_⟩
        rintro rfl
        exact nomatch he

theorem longestRun_eq_zero {c : Char} {cs : List Char} {current : Nat}
    (h : longestRun c current 0 cs = 0) : c ∉ cs := by
  induction cs generalizing current with
  | nil => simp
  | cons d ds ih =>
    rw [longestRun] at h
    split at h
    · have := le_longestRun c (current + 1) (max 0 (current + 1)) ds
      omega
    · rename_i hd
      have hne : ¬ c = d := fun heq => hd (by simp [heq])
      simp [hne, ih h]

theorem textOf_reverse (long : Bool) (cs : List Char) :
    Mode.textOf long (cs.reverse ++ []) = .text long (String.ofList cs) := by
  simp [Mode.textOf]

theorem Style.eq_literal {f : Features} (h : Style.of f = .literal) :
    f.control = false ∧ f.singles = 0 ∧ f.newline = false := by
  unfold Style.of at h
  split_ifs at h with hbasic hliteral
  simpa [and_assoc] using hliteral

theorem Style.eq_blockLiteral {f : Features} (h : Style.of f = .blockLiteral) :
    f.control = false ∧ f.singles ≤ 2 := by
  unfold Style.of at h
  split_ifs at h with hbasic hliteral hblock hblockLiteral
  simpa using hblockLiteral

theorem not_isControl_of_features {cs : List Char} (h : (Features.of cs).control = false) :
    ∀ c ∈ cs, isControl c = false := by
  simpa [Features.of, List.any_eq_false] using h

theorem newline_not_mem_of_features {cs : List Char} (h : (Features.of cs).newline = false) :
    '\n' ∉ cs := by
  simpa [Features.of] using h

/-- A quoted text behind a blank and at the end of a line is one token that holds the text. -/
theorem scans_quote (cs : List Char) :
    ∃ long, Scans .blank (quote cs ++ ['\n']) [.blank, .text long (String.ofList cs), .newline]
      .idle := by
  unfold quote
  dsimp only
  cases hstyle : Style.of (Features.of cs) with
  | basic =>
    have h := scans_line (scans_escaped_line cs [])
    rw [textOf_reverse] at h
    refine ⟨false, ?_⟩
    simp only [List.append_assoc, List.cons_append, List.nil_append]
    exact h
  | literal =>
    obtain ⟨hcontrol, hsingles, hnewline⟩ := Style.eq_literal hstyle
    have h := scans_line (scans_literal_line (not_isControl_of_features hcontrol)
      (longestRun_eq_zero hsingles) (newline_not_mem_of_features hnewline) [])
    rw [textOf_reverse] at h
    refine ⟨false, ?_⟩
    simp only [List.append_assoc, List.cons_append, List.nil_append]
    exact h
  | blockBasic =>
    obtain ⟨m, hm, hcontent⟩ := scans_escaped_block cs [] 0 (by omega)
    have h := scans_block_open (hcontent.quiet (scans_block_close hm)) (by simp)
      (Features.of cs).newline
      fun hnewline => head_escaped_block (newline_not_mem_of_features hnewline) _
    refine ⟨true, ?_⟩
    rw [← textOf_reverse]
    simp only [List.append_assoc, List.cons_append, List.nil_append]
    exact h
  | blockLiteral =>
    obtain ⟨hcontrol, hsingles⟩ := Style.eq_blockLiteral hstyle
    have hplain := not_isControl_of_features hcontrol
    obtain ⟨m, hm, hcontent⟩ := scans_literal_block hplain [] 0 0 (by omega) hsingles
    have h := scans_block_open (hcontent.quiet (scans_block_close hm)) (by simp)
      (Features.of cs).newline ?_
    · refine ⟨true, ?_⟩
      rw [← textOf_reverse]
      simp only [List.append_assoc, List.cons_append, List.nil_append]
      exact h
    · intro hnewline c hc
      cases cs with
      | nil =>
        cases hc
        decide
      | cons d ds =>
        cases hc
        refine ⟨fun hd => newline_not_mem_of_features hnewline (hd ▸ List.mem_cons_self), ?_⟩
        rintro rfl
        exact nomatch hplain '\r' List.mem_cons_self

end Steward.Toml
