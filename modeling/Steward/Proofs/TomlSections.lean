import Steward.Proofs.Moments
import Steward.Proofs.TomlKeys
import Steward.Proofs.TomlTexts

/-!
# Written sections are read back

A document that is written section by section reads as the table of its sections, each with its lines
under their keys (`parse_renderSections`). Names and keys have to be bare keys, each used once, and
numbers no greater than a reader takes up.
-/

set_option autoImplicit false

namespace Steward.Toml

/-! ## Words -/

theorem begin_of_isWordChar {c : Char} (h : Mode.isWordChar c = true) :
    Mode.begin c = ([], .word [c]) := by
  unfold Mode.begin
  split
  case h_15 => rfl
  all_goals exact nomatch h

theorem next_word {c : Char} (h : Mode.isWordChar c = true) (chars : List Char) :
    (Mode.word chars).next c = some ([], .word (c :: chars)) := by
  simp [Mode.next, h]

theorem scans_word_more {cs : List Char} (h : ∀ c ∈ cs, Mode.isWordChar c = true)
    (chars : List Char) : Scans (.word chars) cs [] (.word (cs.reverse ++ chars)) := by
  induction cs generalizing chars with
  | nil => exact .nil _
  | cons c cs ih =>
    rw [List.reverse_cons, List.append_assoc]
    exact .pass (next_word (h c List.mem_cons_self) chars)
      (ih (fun d hd => h d (List.mem_cons_of_mem c hd)) (c :: chars))

theorem scans_word {cs : List Char} (hne : cs ≠ []) (h : ∀ c ∈ cs, Mode.isWordChar c = true) :
    Scans .idle cs [] (.word cs.reverse) := by
  obtain ⟨c, cs, rfl⟩ := List.exists_cons_of_ne_nil hne
  have hfirst : Mode.idle.next c = some ([], .word [c]) := by
    rw [Mode.next, begin_of_isWordChar (h c List.mem_cons_self)]
  have hrest := scans_word_more (fun d hd => h d (List.mem_cons_of_mem c hd)) [c]
  rw [List.reverse_cons]
  exact .pass hfirst hrest

theorem scans_word_behind_blank {cs : List Char} (hne : cs ≠ [])
    (h : ∀ c ∈ cs, Mode.isWordChar c = true) : Scans .blank cs [.blank] (.word cs.reverse) := by
  obtain ⟨c, cs, rfl⟩ := List.exists_cons_of_ne_nil hne
  have hc := h c List.mem_cons_self
  have hnb : ¬ (c = ' ' ∨ c = '\t') := by
    rintro (rfl | rfl) <;> exact nomatch hc
  have hfirst : Mode.blank.next c = some ([.blank], .word [c]) := by
    rw [Mode.next, begin_of_isWordChar hc, if_neg (by simpa using hnb)]
  have hrest := scans_word_more (fun d hd => h d (List.mem_cons_of_mem c hd)) [c]
  rw [List.reverse_cons]
  exact .cons hfirst hrest

theorem isWordChar_of_bare {c : Char} (h : (c.isAlphanum || c == '_' || c == '-') = true) :
    Mode.isWordChar c = true := by
  have table : (" \t\n\r#\"'.,=[]\x7b\x7d".toList.all fun d =>
      !(d.isAlphanum || d == '_' || d == '-')) = true := by rfl
  unfold Mode.isWordChar
  rw [Bool.not_eq_true']
  by_contra hmem
  rw [Bool.not_eq_false, List.contains_iff_mem] at hmem
  have hc := List.all_eq_true.1 table c hmem
  rw [h] at hc
  exact nomatch hc

theorem isWordChar_of_isBareKey {cs : List Char} (h : State.isBareKey cs = true) :
    cs ≠ [] ∧ ∀ c ∈ cs, Mode.isWordChar c = true := by
  simp only [State.isBareKey, Bool.and_eq_true, Bool.not_eq_true', List.isEmpty_eq_false_iff,
    List.all_eq_true] at h
  exact ⟨h.1, fun c hc => isWordChar_of_bare (h.2 c hc)⟩

/-! ## Plain values -/

namespace Scalar

theorem ungroup_of_isDigit {cs : List Char} (hne : cs ≠ []) (h : ∀ c ∈ cs, c.isDigit = true) :
    ungroup (fun c => (Text.digit? c).isSome) cs = some cs := by
  fun_induction ungroup (fun c => (Text.digit? c).isSome) cs with
  | case1 => exact absurd rfl hne
  | case2 c hc => rfl
  | case3 c hc => exact absurd (Text.digit?_isSome c ▸ h c List.mem_cons_self) hc
  | case4 c d rest hc ih => exact nomatch h '_' (by simp)
  | case5 c d rest hc => exact nomatch h '_' (by simp)
  | case6 c d rest _ hc ih =>
    rw [ih (by simp) fun e he => h e (List.mem_cons_of_mem c he)]
    rfl
  | case7 c d rest _ hc => exact absurd (Text.digit?_isSome c ▸ h c List.mem_cons_self) hc

theorem isDigit_toDigits (n : Nat) : ∀ c ∈ Nat.toDigits 10 n, c.isDigit = true := by
  intro c hc
  exact Nat.isDigit_of_mem_toDigits (by decide) (by decide) hc

/-- A numeral has no superfluous zero in front. -/
theorem toDigits_leading_zero {n : Nat} {cs : List Char} (h : Nat.toDigits 10 n = '0' :: cs) :
    cs = [] := by
  induction n using Nat.strongRecOn generalizing cs with
  | ind n ih =>
    by_cases hlt : n < 10
    · rw [Nat.toDigits_of_lt_base hlt] at h
      exact (List.cons.inj h).2.symm
    · rw [Nat.toDigits_of_base_le (by omega) (by omega)] at h
      obtain ⟨c, ds, hds⟩ := List.exists_cons_of_ne_nil (Nat.toDigits_ne_nil (n := n / 10) (b := 10))
      rw [hds, List.cons_append] at h
      obtain ⟨rfl, -⟩ := List.cons.inj h
      obtain rfl := ih (n / 10) (by omega) hds
      have hzero := Nat.ofDigitChars_ten_toDigits (n := n / 10)
      rw [hds] at hzero
      have : n / 10 = 0 := hzero.symm
      omega

theorem wholeDigits_toDigits (n : Nat) :
    wholeDigits (Nat.toDigits 10 n) = some (Nat.toDigits 10 n) := by
  have hd : decimalDigits (Nat.toDigits 10 n) = some (Nat.toDigits 10 n) :=
    ungroup_of_isDigit Nat.toDigits_ne_nil (isDigit_toDigits n)
  unfold wholeDigits
  split
  · rename_i heq
    rw [hd, Option.some.injEq] at heq
    exact nomatch toDigits_leading_zero heq
  · exact hd

theorem splitSign_toDigits (n : Nat) :
    splitSign (Nat.toDigits 10 n) = (false, Nat.toDigits 10 n) := by
  have hdigit := isDigit_toDigits n
  unfold splitSign
  split
  · rename_i heq
    exact nomatch hdigit '+' (heq ▸ List.mem_cons_self)
  · rename_i heq
    exact nomatch hdigit '-' (heq ▸ List.mem_cons_self)
  · rfl

theorem integer?_toDigits {n : Nat} (h : (n : Int) ≤ integerMax) :
    integer? (Nat.toDigits 10 n) = some (n : Int) := by
  have hdigit := isDigit_toDigits n
  have hvalue : Text.digitsFrom 10 0 (Nat.toDigits 10 n) = some n := by
    rw [Text.digitsFrom_of_isDigit hdigit, Nat.ofDigitChars_ten_toDigits]
  have hmin : integerMin ≤ (n : Int) := by
    have : integerMin ≤ 0 := by decide
    omega
  unfold integer?
  split
  case h_4 =>
    dsimp only
    rw [splitSign_toDigits]
    dsimp only
    rw [wholeDigits_toDigits]
    simp [hvalue, hmin, h]
  all_goals
    rename_i heq
    have := hdigit _ (heq ▸ List.mem_cons_of_mem _ List.mem_cons_self)
    exact nomatch this

theorem value?_toDigits {n : Nat} (h : (n : Int) ≤ integerMax) :
    value? (Nat.toDigits 10 n) = some (.integer n) := by
  have hdigit := isDigit_toDigits n
  have htrue : Nat.toDigits 10 n ≠ "true".toList := by
    intro heq
    exact nomatch hdigit 't' (heq ▸ List.mem_cons_self)
  have hfalse : Nat.toDigits 10 n ≠ "false".toList := by
    intro heq
    exact nomatch hdigit 'f' (heq ▸ List.mem_cons_self)
  unfold value?
  rw [if_neg (by simpa using htrue), if_neg (by simpa using hfalse), integer?_toDigits h]

end Scalar

/-! ## Lines and headers -/

/-- What a reader makes of a value on a line of its own. -/
def Plain.value : Plain → Value
  | .text s => .string s
  | .natural n => .integer n
  | .flag b => .boolean b

/-- Whether a reader can take up the value. -/
def Plain.Fits : Plain → Prop
  | .text _ => True
  | .natural n => (n : Int) ≤ Scalar.integerMax
  | .flag _ => True

namespace State

theorem run_cons {s s' : State} {t : Token} (h : s.step t = some s') (ts : List Token) :
    s.run (t :: ts) = s'.run ts := by
  rw [run, h]

theorem run_append (s : State) (ts us : List Token) :
    s.run (ts ++ us) = (s.run ts).bind fun s' => s'.run us := by
  induction ts generalizing s with
  | nil => rfl
  | cons t ts ih =>
    rw [List.cons_append, run, run]
    cases s.step t with
    | none => rfl
    | some s' => exact ih s'

/-- The reader at the start of a line below the header `name`, which opened the last table so far. -/
def under (root : Entries) (name : String) (es : Entries) : State :=
  ⟨root ++ [(name, .table .header es)], [name], [], .lineStart⟩

variable {root es : Entries} {name key : String}

theorem assign_under (hname : name ∉ root.map Prod.fst) (hkey : key ∉ es.map Prod.fst) (v : Value)
    (frames : List Frame) (phase : Phase) :
    assign ⟨root ++ [(name, .table .header es)], [name], frames, phase⟩ [key] v =
      some { under root name (es ++ [(key, v)]) with phase := .lineEnd } := by
  have hset : setEntry [key] v .header es = some (.header, es ++ [(key, v)]) := by
    simp [setEntry, descend, Entries.get?_of_not_mem hkey, Entries.put_of_not_mem hkey]
  have hdescend : descend false (fun kind es => setEntry [key] v kind es) [name] .header
      (root ++ [(name, .table .header es)]) =
        some (.header, root ++ [(name, .table .header (es ++ [(key, v)]))]) := by
    simp [descend, Entries.get?_last hname, Entries.put_last hname, hset]
  rw [assign]
  dsimp only
  rw [hdescend]
  rfl

theorem pushKey_word (h : isBareKey key.toList = true) (s : State) (use : KeyUse) :
    s.pushKey use [] (.word key.toList) = some { s with phase := .keyNext use [key] } := by
  simp [pushKey, keyPart?, h, keyLimit]

end State

/-- The characters of whole lines lead a reader from one state to another. -/
def Takes (s : State) (cs : List Char) (s' : State) : Prop :=
  ∃ ts, Scans .idle cs ts .idle ∧ s.run ts = some s'

theorem Takes.append {s s' s'' : State} {cs ds : List Char} (h : Takes s cs s')
    (h' : Takes s' ds s'') : Takes s (cs ++ ds) s'' := by
  obtain ⟨ts, hscan, hrun⟩ := h
  obtain ⟨us, hscan', hrun'⟩ := h'
  refine ⟨ts ++ us, hscan.append hscan', ?_⟩
  rw [State.run_append, hrun]
  exact hrun'

theorem takes_empty_line (root : Entries) (heading : List String) :
    Takes ⟨root, heading, [], .lineStart⟩ ['\n'] ⟨root, heading, [], .lineStart⟩ :=
  ⟨[.newline], .single next_idle_newline, rfl⟩

theorem next_word_newline (chars : List Char) :
    (Mode.word chars).next '\n' = some ([.word chars.reverse, .newline], .idle) := rfl

section Value

variable {root : Entries} {heading parts : List String} {s : State}

/-- A plain word in the place of a value is delivered at the end of its line. -/
theorem scans_word_value {cs : List Char} (hne : cs ≠ [])
    (hword : ∀ c ∈ cs, Mode.isWordChar c = true) {v : Value} (hv : Scalar.value? cs = some v)
    (hassign : ∀ phase, State.assign ⟨root, heading, [.line parts], phase⟩ parts v =
      some { s with phase := .lineEnd }) :
    ∃ ts, Scans .blank (cs ++ ['\n']) ts .idle ∧
      State.run ⟨root, heading, [.line parts], .value⟩ ts = some { s with phase := .lineStart } := by
  have hscan := (scans_word_behind_blank hne hword).append (.single (next_word_newline cs.reverse))
  rw [List.reverse_reverse] at hscan
  refine ⟨_, hscan, ?_⟩
  have hend : State.endScalar ⟨root, heading, [.line parts], .scalar cs⟩ cs =
      some { s with phase := .lineEnd } := by
    rw [State.endScalar, hv]
    exact hassign _
  have hstep : State.step ⟨root, heading, [.line parts], .scalar cs⟩ .newline =
      some { s with phase := .lineStart } := by
    show (State.endScalar _ cs).bind (·.afterValue .newline) = _
    rw [hend]
    rfl
  have hblank : State.step ⟨root, heading, [.line parts], .value⟩ .blank =
      some ⟨root, heading, [.line parts], .value⟩ := rfl
  have hbegin : State.step ⟨root, heading, [.line parts], .value⟩ (.word cs) =
      some ⟨root, heading, [.line parts], .scalar cs⟩ := rfl
  rw [List.cons_append, State.run_cons hblank, List.nil_append, State.run_cons hbegin]
  exact State.run_cons hstep []

theorem scans_value {v : Plain} (hv : v.Fits)
    (hassign : ∀ phase, State.assign ⟨root, heading, [.line parts], phase⟩ parts v.value =
      some { s with phase := .lineEnd }) :
    ∃ ts, Scans .blank (v.render ++ ['\n']) ts .idle ∧
      State.run ⟨root, heading, [.line parts], .value⟩ ts = some { s with phase := .lineStart } := by
  cases v with
  | text t =>
    obtain ⟨long, hscan⟩ := scans_quote t.toList
    rw [String.ofList_toList] at hscan
    refine ⟨_, hscan, ?_⟩
    have hblank : State.step ⟨root, heading, [.line parts], .value⟩ .blank =
        some ⟨root, heading, [.line parts], .value⟩ := rfl
    have hstep : State.step ⟨root, heading, [.line parts], .value⟩ (.text long t) =
        some { s with phase := .lineEnd } := hassign _
    rw [State.run_cons hblank, State.run_cons hstep]
    rfl
  | natural n =>
    have hword : ∀ c ∈ Nat.toDigits 10 n, Mode.isWordChar c = true := by
      intro c hc
      have hdigit := Scalar.isDigit_toDigits n c hc
      exact isWordChar_of_bare (by simp [Char.isAlphanum, hdigit])
    exact scans_word_value Nat.toDigits_ne_nil hword (Scalar.value?_toDigits hv) hassign
  | flag b =>
    cases b with
    | true => exact scans_word_value (by simp [Plain.render]) (List.all_eq_true.1 rfl) rfl hassign
    | false => exact scans_word_value (by simp [Plain.render]) (List.all_eq_true.1 rfl) rfl hassign

end Value

section Lines

variable {root es : Entries} {name key : String}

theorem takes_line (hname : name ∉ root.map Prod.fst) (hbare : State.isBareKey key.toList = true)
    (hkey : key ∉ es.map Prod.fst) {v : Plain} (hv : v.Fits) :
    Takes (.under root name es) (key.toList ++ " = ".toList ++ v.render ++ ['\n'])
      (.under root name (es ++ [(key, v.value)])) := by
  obtain ⟨hne, hword⟩ := isWordChar_of_isBareKey hbare
  obtain ⟨ts, hscan, hrun⟩ := scans_value hv fun phase =>
    State.assign_under hname hkey v.value [.line [key]] phase
  have hspace : (Mode.word key.toList.reverse).next ' ' = some ([.word key.toList], .blank) := by
    simp [Mode.next, Mode.isWordChar, Mode.begin]
  have hsign : Mode.blank.next '=' = some ([.blank, .equals], .idle) := rfl
  have hequals : Scans (.word key.toList.reverse) " = ".toList [.word key.toList, .blank, .equals]
      .blank := .cons hspace (.cons hsign (.single rfl))
  refine ⟨[.word key.toList, .blank, .equals] ++ ts, ?_, ?_⟩
  · rw [List.append_assoc, List.append_assoc]
    exact (scans_word hne hword).quiet (hequals.append hscan)
  · have hpush : (State.under root name es).step (.word key.toList) =
        some { State.under root name es with phase := .keyNext .entry [key] } :=
      State.pushKey_word hbare _ _
    rw [State.run_append, State.run_cons hpush]
    exact hrun

theorem takes_lines {lines : List (String × Plain)} (hname : name ∉ root.map Prod.fst)
    (hbare : ∀ l ∈ lines, State.isBareKey l.1.toList = true) (hfits : ∀ l ∈ lines, l.2.Fits)
    (hnodup : (es.map Prod.fst ++ lines.map Prod.fst).Nodup) :
    Takes (.under root name es) (renderLines lines)
      (.under root name (es ++ lines.map fun l => (l.1, l.2.value))) := by
  induction lines generalizing es with
  | nil =>
    rw [List.map_nil, List.append_nil]
    exact ⟨[], .nil _, rfl⟩
  | cons l lines ih =>
    obtain ⟨key, v⟩ := l
    rw [List.forall_mem_cons] at hbare hfits
    have hline := takes_line hname hbare.1 (Entries.not_mem_of_nodup hnodup) hfits.1
    -- the keys read so far stay apart from those still to come
    have hnodup' : ((es ++ [(key, v.value)]).map Prod.fst ++ lines.map Prod.fst).Nodup := by
      simpa using hnodup
    have := hline.append (ih hbare.2 hfits.2 hnodup')
    simpa [renderLines] using this

theorem takes_header (hbare : State.isBareKey name.toList = true) (hname : name ∉ root.map Prod.fst)
    (heading : List String) :
    Takes ⟨root, heading, [], .lineStart⟩ ('[' :: name.toList ++ "]\n".toList)
      (.under root name []) := by
  obtain ⟨hne, hword⟩ := isWordChar_of_isBareKey hbare
  have hclose : (Mode.word name.toList.reverse).next ']' =
      some ([.word name.toList, .closeBracket], .idle) := by
    simp [Mode.next, Mode.isWordChar, Mode.begin]
  have hend : Scans (.word name.toList.reverse) "]\n".toList
      [.word name.toList, .closeBracket, .newline] .idle := .cons hclose (.single rfl)
  refine ⟨[.openBracket] ++ [.word name.toList, .closeBracket, .newline],
    .cons rfl ((scans_word hne hword).quiet hend), ?_⟩
  have hpush : State.step ⟨root, heading, [], .headerOpen⟩ (.word name.toList) =
      some ⟨root, heading, [], .keyNext (.header false) [name]⟩ := State.pushKey_word hbare _ _
  have hopen : openTable [name] root = some (root ++ [(name, .table .header [])]) := by
    simp [openTable, descend, Entries.get?_of_not_mem hname, Entries.put_of_not_mem hname]
  have hbegin : State.step ⟨root, heading, [], .keyNext (.header false) [name]⟩ .closeBracket =
      some { State.under root name [] with phase := .lineEnd } := by
    show State.beginTable _ false [name] = _
    simp [State.beginTable, hopen, State.under]
  have hbracket : State.step ⟨root, heading, [], .lineStart⟩ .openBracket =
      some ⟨root, heading, [], .headerOpen⟩ := rfl
  rw [List.cons_append, State.run_cons hbracket, List.nil_append, State.run_cons hpush,
    State.run_cons hbegin]
  rfl

end Lines

/-! ## Sections and documents -/

/-- A section that can be read back: its name and keys are bare, no key is used twice, and a reader can
take up the numbers. -/
structure IsReadable (name : String) (lines : List (String × Plain)) : Prop where
  name_bare : State.isBareKey name.toList = true
  keys_bare : ∀ l ∈ lines, State.isBareKey l.1.toList = true
  keys_distinct : (lines.map Prod.fst).Nodup
  fits : ∀ l ∈ lines, l.2.Fits

/-- The entry that a reader makes of a section. -/
def sectionEntry (name : String) (lines : List (String × Plain)) : String × Value :=
  (name, .table .header (lines.map fun l => (l.1, l.2.value)))

section Sections

variable {root : Entries}

theorem takes_section {name : String} {lines : List (String × Plain)} (h : IsReadable name lines)
    (hname : name ∉ root.map Prod.fst) (heading : List String) :
    Takes ⟨root, heading, [], .lineStart⟩ ('[' :: name.toList ++ "]\n".toList ++ renderLines lines)
      ⟨root ++ [sectionEntry name lines], [name], [], .lineStart⟩ := by
  have hheader := takes_header h.name_bare hname heading
  have hlines : Takes (.under root name []) (renderLines lines)
      (.under root name (lines.map fun l => (l.1, l.2.value))) :=
    takes_lines hname h.keys_bare h.fits h.keys_distinct
  exact hheader.append hlines

theorem takes_sections {sections : List (String × List (String × Plain))}
    (h : ∀ s ∈ sections, IsReadable s.1 s.2)
    (hnodup : (root.map Prod.fst ++ sections.map Prod.fst).Nodup) (heading : List String) :
    ∃ heading', Takes ⟨root, heading, [], .lineStart⟩ (renderSections sections)
      ⟨root ++ sections.map fun s => sectionEntry s.1 s.2, heading', [], .lineStart⟩ := by
  fun_induction renderSections sections generalizing root heading with
  | case1 => exact ⟨heading, [], .nil _, by simp [State.run]⟩
  | case2 name lines =>
    have hnew := Entries.not_mem_of_nodup hnodup
    exact ⟨[name], takes_section (h _ List.mem_cons_self) hnew heading⟩
  | case3 name lines s rest ih =>
    rw [List.forall_mem_cons] at h
    have hfirst := takes_section h.1 (Entries.not_mem_of_nodup hnodup) heading
    have hnodup' : ((root ++ [sectionEntry name lines]).map Prod.fst ++
        (s :: rest).map Prod.fst).Nodup := by
      simpa [sectionEntry] using hnodup
    obtain ⟨heading', hrest⟩ := ih h.2 hnodup' [name]
    refine ⟨heading', ?_⟩
    have := (hfirst.append (takes_empty_line _ _)).append hrest
    simpa using this

end Sections

/-- Written sections are read as a table of their own each, in their order. -/
theorem parse_renderSections {sections : List (String × List (String × Plain))}
    (h : ∀ s ∈ sections, IsReadable s.1 s.2) (hnodup : (sections.map Prod.fst).Nodup) :
    parse (renderSections sections) = some (sections.map fun s => sectionEntry s.1 s.2) := by
  have hfresh : (([] : Entries).map Prod.fst ++ sections.map Prod.fst).Nodup := hnodup
  obtain ⟨heading, ts, hscan, hrun⟩ := takes_sections h hfresh []
  have hend : Mode.idle.finish = some [] := rfl
  have htokens : scan (renderSections sections) = some ts := by
    rw [scan, hscan.scanFrom hend]
    simp
  have hdocument : ofTokens? ts = some (sections.map fun s => sectionEntry s.1 s.2) := by
    have hall : State.start.run (ts ++ [.newline]) =
        some ⟨sections.map fun s => sectionEntry s.1 s.2, heading, [], .lineStart⟩ := by
      rw [State.run_append, State.start, hrun]
      rfl
    rw [ofTokens?, hall]
  -- a bracket comes first, so there is no byte order mark to pass over
  have hmark : parse (renderSections sections) =
      (scan (renderSections sections)).bind ofTokens? := by
    match sections with
    | [] => rfl
    | [_] => rfl
    | _ :: _ :: _ => rfl
  rw [hmark, htokens]
  exact hdocument

end Steward.Toml
