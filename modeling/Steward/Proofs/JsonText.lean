import Mathlib.Tactic.SplitIfs
import Steward.Json.Parser
import Steward.Json.Printer

/-!
# JSON texts

Scanning and parsing are two passes over a text. A `Reader` makes both at once, character by character,
and comes to the same result (`parse_eq`); with it one can say what is known in the middle of a text.

Three facts are proved with it. A value without numbers is read back as it was written (`parse_render`).
The text of an object that is cut short is no JSON text (`parse_cut`). And neither is such a piece, or
the whole text, with the text of another object right behind it (`parse_brace_append`): there is no way to
go on with a piece of a text as if nothing had happened.
-/

set_option autoImplicit false

namespace Steward.Json

/-! ## Reading in one pass -/

/-- A reader in the middle of a text: the token begun so far and the parser behind the others. -/
structure Reader where
  mode : Mode
  state : State

namespace Reader

def start : Reader := ⟨.idle, .start⟩

def read (r : Reader) (c : Char) : Option Reader :=
  match r.mode.next c with
  | some (tokens, m) => (r.state.run tokens).map (⟨m, ·⟩)
  | none => none

def readAll (r : Reader) : List Char → Option Reader
  | [] => some r
  | c :: cs => (r.read c).bind (·.readAll cs)

/-- The value, if the text may end here. -/
def result (r : Reader) : Option Value :=
  match r.mode.finish with
  | some tokens =>
    match r.state.run tokens with
    | some ⟨[], .nothing, v⟩ => some v
    | _ => none
  | none => none

@[simp] theorem readAll_nil (r : Reader) : r.readAll [] = some r := rfl

@[simp] theorem readAll_cons (r : Reader) (c : Char) (cs : List Char) :
    r.readAll (c :: cs) = (r.read c).bind (·.readAll cs) := rfl

@[simp] theorem readAll_append (r : Reader) (cs ds : List Char) :
    r.readAll (cs ++ ds) = (r.readAll cs).bind (·.readAll ds) := by
  induction cs generalizing r with
  | nil => rfl
  | cons c cs ih =>
    rw [List.cons_append, readAll_cons, readAll_cons]
    cases r.read c with
    | none => rfl
    | some r' => exact ih r'

end Reader

@[simp] theorem State.run_nil (s : State) : s.run [] = some s := rfl

@[simp] theorem State.run_cons (s : State) (t : Token) (ts : List Token) :
    s.run (t :: ts) = (s.step t).bind (·.run ts) := by
  rw [State.run]
  cases s.step t <;> rfl

theorem State.run_append (s : State) (ts us : List Token) :
    s.run (ts ++ us) = (s.run ts).bind (·.run us) := by
  induction ts generalizing s with
  | nil => rfl
  | cons t ts ih =>
    rw [List.cons_append, run_cons, run_cons]
    cases s.step t with
    | none => rfl
    | some s' => exact ih s'

/-- The two passes behind some tokens that were scanned before. -/
theorem scanFrom_bind_ofTokens? (cs : List Char) (m : Mode) (done : List Token) :
    (scanFrom m done cs).bind ofTokens? =
      (State.start.run done.reverse).bind fun s => ((⟨m, s⟩ : Reader).readAll cs).bind (·.result) := by
  induction cs generalizing m done with
  | nil =>
    rw [scanFrom]
    cases hm : m.finish with
    | none => cases State.start.run done.reverse <;> simp [Reader.result, hm]
    | some tokens =>
      simp only [Option.map_some, Option.bind_some, ofTokens?, List.reverse_append, List.reverse_reverse,
        State.run_append, Reader.readAll_nil, Reader.result, hm]
      cases State.start.run done.reverse with
      | none => rfl
      | some s => rfl
  | cons c cs ih =>
    rw [scanFrom]
    cases hn : m.next c with
    | none => cases State.start.run done.reverse <;> simp [Reader.read, hn]
    | some next =>
      obtain ⟨tokens, m'⟩ := next
      simp only [ih, List.reverse_append, List.reverse_reverse, State.run_append, Reader.readAll_cons,
        Reader.read, hn]
      cases State.start.run done.reverse with
      | none => rfl
      | some s =>
        simp only [Option.bind_some]
        cases s.run tokens <;> rfl

theorem parse_eq (cs : List Char) : parse cs = (Reader.start.readAll cs).bind (·.result) :=
  scanFrom_bind_ofTokens? cs .idle []

/-! ## Values -/

namespace Reader

theorem hexDigit?_digitChar {d : Nat} (h : d < 16) : Text.hexDigit? d.digitChar = some d := by
  have table : ∀ d : Fin 16, Text.hexDigit? d.val.digitChar = some d.val := by decide
  exact table ⟨d, h⟩

theorem toList_hexLower {n : Nat} (h : n < 32) :
    (Text.hexLower 4 n).toList = ['0', '0', (n / 16).digitChar, (n % 16).digitChar] := by
  have table : ∀ n : Fin 32, (Text.hexLower 4 n.val).toList =
      ['0', '0', (n.val / 16).digitChar, (n.val % 16).digitChar] := by decide
  exact table ⟨n, h⟩

/-- A control character is written by its number in four digits. -/
theorem readAll_hexLower (d : StringDraft) (s : State) {n : Nat} (h : n < 32) :
    (⟨.hex d none 0 0, s⟩ : Reader).readAll (Text.hexLower 4 n).toList =
      some ⟨.string (d.push (Char.ofNat n)), s⟩ := by
  have hzero : Text.hexDigit? '0' = some 0 := rfl
  have hvalue : n / 16 * 16 + n % 16 = n := by omega
  have hhigh : Mode.isHigh n = false := by simp only [Mode.isHigh, Bool.and_eq_false_iff]; simp; omega
  have hlow : Mode.isLow n = false := by simp only [Mode.isLow, Bool.and_eq_false_iff]; simp; omega
  rw [toList_hexLower h]
  simp [read, Mode.next, Mode.afterHex, hzero, hexDigit?_digitChar (show n / 16 < 16 by omega),
    hexDigit?_digitChar (show n % 16 < 16 by omega), hvalue, hhigh, hlow]

/-- A character that is written as it is or escaped is one character of the string. -/
theorem readAll_escapeChar (d : StringDraft) (s : State) (c : Char) :
    (⟨.string d, s⟩ : Reader).readAll (escapeChar c) = some ⟨.string (d.push c), s⟩ := by
  unfold escapeChar
  split
  all_goals try rfl
  rename_i hquote hslash _ _ _ _ _
  split
  · rename_i hlow
    have hslash : (⟨.string d, s⟩ : Reader).read '\\' = some ⟨.escape d none, s⟩ := rfl
    have hu : (⟨.escape d none, s⟩ : Reader).read 'u' = some ⟨.hex d none 0 0, s⟩ := rfl
    rw [readAll_cons, hslash, Option.bind_some, readAll_cons, hu, Option.bind_some,
      readAll_hexLower d s hlow, Char.ofNat_toNat]
  · rename_i hlow
    have hnext : (Mode.string d).next c = some ([], .string (d.push c)) := by
      rw [Mode.next, Mode.inString, if_neg (by simpa using hquote), if_neg (by simpa using hslash),
        if_neg hlow]
    simp [read, hnext]

theorem readAll_quote (s : State) (t : String) :
    (⟨.idle, s⟩ : Reader).readAll (quote t) = (s.step (.string (some t))).map (⟨.idle, ·⟩) := by
  have chars : ∀ (cs : List Char) (d : StringDraft),
      (⟨.string d, s⟩ : Reader).readAll (cs.flatMap escapeChar) =
        some ⟨.string { d with chars := cs.reverse ++ d.chars }, s⟩ := by
    intro cs
    induction cs with
    | nil => intro d; rfl
    | cons c cs ih =>
      intro d
      rw [List.flatMap_cons, readAll_append, readAll_escapeChar, Option.bind_some, ih]
      simp [StringDraft.push]
  rw [quote, List.cons_append, readAll_cons]
  have hopen : (⟨.idle, s⟩ : Reader).read '"' = some ⟨.string .empty, s⟩ := rfl
  rw [hopen, Option.bind_some, readAll_append, chars, Option.bind_some]
  simp [read, Mode.next, Mode.inString, StringDraft.finish, StringDraft.empty]

end Reader

namespace Value

mutual

/-- Whether a value holds no number and only strings that denote texts. -/
def isPlain : Value → Bool
  | .null => true
  | .bool _ => true
  | .number _ => false
  | .string s => s.isSome
  | .array items => arePlain items
  | .object members => membersPlain members

def arePlain : List Value → Bool
  | [] => true
  | v :: vs => isPlain v && arePlain vs

def membersPlain : List (Literal × Value) → Bool
  | [] => true
  | (k, v) :: ms => k.isSome && isPlain v && membersPlain ms

end

theorem render_null : render .null = ['n', 'u', 'l', 'l'] := rfl

theorem render_true : render (.bool true) = ['t', 'r', 'u', 'e'] := rfl

theorem render_false : render (.bool false) = ['f', 'a', 'l', 's', 'e'] := rfl

theorem render_string (s : String) : render (.string (some s)) = quote s := rfl

theorem render_array (items : List Value) : render (.array items) = '[' :: (renderItems items ++ [']']) := rfl

theorem render_object (members : List (Literal × Value)) :
    render (.object members) = '\x7b' :: (renderMembers members ++ ['\x7d']) := rfl

theorem renderItems_one (v : Value) : renderItems [v] = v.render := rfl

theorem renderItems_cons (v : Value) {vs : List Value} (h : vs ≠ []) :
    renderItems (v :: vs) = v.render ++ ',' :: renderItems vs := by
  cases vs with
  | nil => exact absurd rfl h
  | cons w ws => rfl

theorem renderMembers_one (k : String) (v : Value) :
    renderMembers [(some k, v)] = quote k ++ ':' :: v.render := rfl

theorem renderMembers_cons (k : String) (v : Value) {ms : List (Literal × Value)} (h : ms ≠ []) :
    renderMembers ((some k, v) :: ms) =
      (quote k ++ ':' :: v.render) ++ ',' :: renderMembers ms := by
  cases ms with
  | nil => exact absurd rfl h
  | cons m ms => rfl

end Value

namespace State

/-- Whether a value may begin here. -/
def takesValue (s : State) : Bool := s.expect == .value || s.expect == .valueOrEnd

/-- Whether a member name may come here. -/
def takesKey (s : State) : Bool := s.expect == .key || s.expect == .keyOrEnd

theorem step_of_takesValue {s : State} {t : Token} (h : s.takesValue = true) (ht : t ≠ .endArray) :
    s.step t = beginValue s.frames t := by
  unfold step
  unfold takesValue at h
  cases he : s.expect <;> simp [he] at h
  · rfl
  · cases t <;> first | rfl | exact absurd rfl ht

theorem step_of_takesKey {s : State} (k : Literal) (h : s.takesKey = true) :
    s.step (.string k) = setKey k s.frames := by
  unfold step
  unfold takesKey at h
  cases he : s.expect <;> simp [he] at h <;> rfl

end State

namespace Reader

open State

/-- `null`, `true` and `false`: the rest of such a word. -/
theorem readAll_word (s : State) (t : Token) (c : Char) (cs : List Char) :
    (⟨.word t (c :: cs), s⟩ : Reader).readAll (c :: cs) = (s.step t).map (⟨.idle, ·⟩) := by
  induction cs generalizing c with
  | nil =>
    simp only [readAll_cons, read, Mode.next, beq_self_eq_true, if_true, List.isEmpty_nil, State.run_cons,
      State.run_nil]
    cases s.step t <;> rfl
  | cons d ds ih =>
    have hread : (⟨.word t (c :: d :: ds), s⟩ : Reader).read c = some ⟨.word t (d :: ds), s⟩ := by
      simp [read, Mode.next]
    rw [readAll_cons, hread, Option.bind_some, ih]

theorem readAll_letter {s : State} {m : Mode} {c : Char} (h : Mode.begin c = some ([], m)) (cs : List Char) :
    (⟨.idle, s⟩ : Reader).readAll (c :: cs) = (⟨m, s⟩ : Reader).readAll cs := by
  rw [readAll_cons, read, Mode.next, h]
  rfl

mutual

theorem readAll_render (v : Value) (s : State) (hv : v.isPlain = true) (hs : s.takesValue = true) :
    (⟨.idle, s⟩ : Reader).readAll v.render = some ⟨.idle, deliver s.frames v⟩ := by
  match v with
  | .null =>
    have hstep := step_of_takesValue hs (show Token.null ≠ .endArray from nofun)
    rw [Value.render_null, readAll_letter rfl, readAll_word, hstep]
    rfl
  | .bool true =>
    have hstep := step_of_takesValue hs (show Token.bool true ≠ .endArray from nofun)
    rw [Value.render_true, readAll_letter rfl, readAll_word, hstep]
    rfl
  | .bool false =>
    have hstep := step_of_takesValue hs (show Token.bool false ≠ .endArray from nofun)
    rw [Value.render_false, readAll_letter rfl, readAll_word, hstep]
    rfl
  | .number n => simp [Value.isPlain] at hv
  | .string none => simp [Value.isPlain] at hv
  | .string (some t) =>
    have hstep := step_of_takesValue hs (show Token.string (some t) ≠ .endArray from nofun)
    rw [Value.render_string, readAll_quote, hstep]
    rfl
  | .array items =>
    have hopen : (⟨.idle, s⟩ : Reader).read '[' =
        some ⟨.idle, ⟨.array [] :: s.frames, .valueOrEnd, .null⟩⟩ := by
      have hstep := step_of_takesValue hs (show Token.beginArray ≠ .endArray from nofun)
      simp [read, Mode.next, Mode.begin, hstep, beginValue]
    rw [Value.render_array, readAll_cons, hopen, Option.bind_some, readAll_append]
    by_cases hitems : items = []
    · subst hitems
      rfl
    · have hall := readAll_renderItems items [] s.frames ⟨.array [] :: s.frames, .valueOrEnd, .null⟩
        hitems hv rfl rfl
      rw [hall, Option.bind_some, List.append_nil]
      simp [read, Mode.next, Mode.begin, step, endArray]
  | .object members =>
    have hopen : (⟨.idle, s⟩ : Reader).read '\x7b' =
        some ⟨.idle, ⟨.object [] none :: s.frames, .keyOrEnd, .null⟩⟩ := by
      have hstep := step_of_takesValue hs (show Token.beginObject ≠ .endArray from nofun)
      simp [read, Mode.next, Mode.begin, hstep, beginValue]
    rw [Value.render_object, readAll_cons, hopen, Option.bind_some, readAll_append]
    by_cases hmembers : members = []
    · subst hmembers
      rfl
    · have hall := readAll_renderMembers members [] none s.frames
        ⟨.object [] none :: s.frames, .keyOrEnd, .null⟩ hmembers hv rfl rfl
      rw [hall, Option.bind_some, List.append_nil]
      simp [read, Mode.next, Mode.begin, step, endObject]

theorem readAll_renderItems (items done : List Value) (rest : List Frame) (s : State)
    (hne : items ≠ []) (hv : Value.arePlain items = true) (hs : s.takesValue = true)
    (hframes : s.frames = .array done :: rest) :
    (⟨.idle, s⟩ : Reader).readAll (Value.renderItems items) =
      some ⟨.idle, ⟨.array (items.reverse ++ done) :: rest, .separator, .null⟩⟩ := by
  match items with
  | [] => exact absurd rfl hne
  | v :: vs =>
    simp only [Value.arePlain, Bool.and_eq_true] at hv
    have hfirst := readAll_render v s hv.1 hs
    rw [hframes, deliver] at hfirst
    by_cases hvs : vs = []
    · subst hvs
      rw [Value.renderItems_one, hfirst]
      rfl
    · have hcomma : (⟨.idle, ⟨.array (v :: done) :: rest, .separator, .null⟩⟩ : Reader).read ',' =
          some ⟨.idle, ⟨.array (v :: done) :: rest, .value, .null⟩⟩ := rfl
      have hothers := readAll_renderItems vs (v :: done) rest ⟨.array (v :: done) :: rest, .value, .null⟩
        hvs hv.2 rfl rfl
      rw [Value.renderItems_cons v hvs, readAll_append, hfirst, Option.bind_some, readAll_cons, hcomma,
        Option.bind_some, hothers]
      simp

theorem readAll_renderMembers (members done : List (Literal × Value)) (key : Literal)
    (rest : List Frame) (s : State) (hne : members ≠ []) (hm : Value.membersPlain members = true)
    (hs : s.takesKey = true) (hframes : s.frames = .object done key :: rest) :
    (⟨.idle, s⟩ : Reader).readAll (Value.renderMembers members) =
      some ⟨.idle, ⟨.object (members.reverse ++ done) none :: rest, .separator, .null⟩⟩ := by
  match members with
  | [] => exact absurd rfl hne
  | (none, v) :: ms => simp [Value.membersPlain] at hm
  | (some k, v) :: ms =>
    simp only [Value.membersPlain, Bool.and_eq_true] at hm
    have hkey : (⟨.idle, s⟩ : Reader).readAll (quote k) =
        some ⟨.idle, ⟨.object done (some k) :: rest, .colon, .null⟩⟩ := by
      rw [readAll_quote, step_of_takesKey _ hs, hframes]
      rfl
    have hcolon : (⟨.idle, ⟨.object done (some k) :: rest, .colon, .null⟩⟩ : Reader).read ':' =
        some ⟨.idle, ⟨.object done (some k) :: rest, .value, .null⟩⟩ := rfl
    have hvalue := readAll_render v ⟨.object done (some k) :: rest, .value, .null⟩ hm.1.2 rfl
    rw [deliver] at hvalue
    have hfirst : (⟨.idle, s⟩ : Reader).readAll (quote k ++ ':' :: v.render) =
        some ⟨.idle, ⟨.object ((some k, v) :: done) none :: rest, .separator, .null⟩⟩ := by
      rw [readAll_append, hkey, Option.bind_some, readAll_cons, hcolon, Option.bind_some, hvalue]
    by_cases hms : ms = []
    · subst hms
      rw [Value.renderMembers_one, hfirst]
      rfl
    · have hcomma :
          (⟨.idle, ⟨.object ((some k, v) :: done) none :: rest, .separator, .null⟩⟩ : Reader).read ',' =
            some ⟨.idle, ⟨.object ((some k, v) :: done) none :: rest, .key, .null⟩⟩ := rfl
      have hothers := readAll_renderMembers ms ((some k, v) :: done) none rest
        ⟨.object ((some k, v) :: done) none :: rest, .key, .null⟩ hms hm.2 rfl rfl
      rw [Value.renderMembers_cons k v hms, readAll_append, hfirst, Option.bind_some, readAll_cons, hcomma,
        Option.bind_some, hothers]
      simp

end

end Reader

theorem parse_render (v : Value) (h : v.isPlain = true) : parse v.render = some v := by
  rw [parse_eq, Reader.start, Reader.readAll_render v .start h rfl]
  rfl

/-! ## Pieces of texts -/

namespace State

/-- Behind the first token of an array or object: something is open, or all is said. -/
def isBegun (s : State) : Prop := s.frames ≠ [] ∨ s.expect = .nothing

theorem isBegun_deliver (frames : List Frame) (v : Value) : (deliver frames v).isBegun := by
  unfold deliver
  split
  · exact .inr rfl
  · exact .inl (List.cons_ne_nil _ _)
  · exact .inl (List.cons_ne_nil _ _)

theorem isBegun_beginValue {frames : List Frame} {t : Token} {s : State}
    (h : beginValue frames t = some s) : s.isBegun := by
  unfold beginValue at h
  split at h
  all_goals first | injection h with h | exact nomatch h
  all_goals subst h
  all_goals first | exact isBegun_deliver _ _ | exact .inl (List.cons_ne_nil _ _)

theorem isBegun_endArray {frames : List Frame} {s : State} (h : endArray frames = some s) : s.isBegun := by
  unfold endArray at h
  split at h
  · injection h with h
    subst h
    exact isBegun_deliver _ _
  · exact nomatch h

theorem isBegun_endObject {frames : List Frame} {s : State} (h : endObject frames = some s) : s.isBegun := by
  unfold endObject at h
  split at h
  · injection h with h
    subst h
    exact isBegun_deliver _ _
  · exact nomatch h

theorem isBegun_setKey {frames : List Frame} {k : Literal} {s : State} (h : setKey k frames = some s) :
    s.isBegun := by
  unfold setKey at h
  split at h
  · injection h with h
    subst h
    exact .inl (List.cons_ne_nil _ _)
  · exact nomatch h

/-- Once begun, a text stays so. -/
theorem isBegun_step {s s' : State} {t : Token} (hs : s.isBegun) (h : s.step t = some s') : s'.isBegun := by
  have hkeep (e : Expect) (he : s.expect ≠ .nothing) : ({ s with expect := e } : State).isBegun :=
    .inl (hs.resolve_right he)
  unfold step at h
  split at h
  case h_1 => exact isBegun_beginValue h
  case h_2 => exact isBegun_endArray h
  case h_3 => exact isBegun_beginValue h
  case h_4 => exact isBegun_endObject h
  case h_5 => exact isBegun_setKey h
  case h_6 => exact isBegun_setKey h
  case h_7 he =>
    injection h with h
    subst h
    exact hkeep .value (by rw [he]; decide)
  case h_8 he =>
    have hn : s.expect ≠ .nothing := by rw [he]; decide
    split at h
    · injection h with h
      subst h
      exact hkeep .value hn
    · injection h with h
      subst h
      exact hkeep .key hn
    · exact nomatch h
  case h_9 => exact isBegun_endArray h
  case h_10 => exact isBegun_endObject h
  case h_11 => exact nomatch h

theorem step_of_nothing {s : State} (h : s.expect = .nothing) (t : Token) : s.step t = none := by
  unfold step
  rw [h]

/-- Numbers and objects come only where a value may begin. -/
theorem takesValue_of_step {s s' : State} {t : Token} (ht : (∃ n, t = .number n) ∨ t = .beginObject)
    (h : s.step t = some s') : s.takesValue = true ∧ beginValue s.frames t = some s' := by
  unfold step at h
  cases he : s.expect
  all_goals obtain ⟨n, rfl⟩ | rfl := ht
  all_goals simp only [he, reduceCtorEq] at h
  all_goals exact ⟨by simp [takesValue, he], h⟩

theorem frames_ne_nil {s : State} (hs : s.isBegun) (h : s.takesValue = true) : s.frames ≠ [] := by
  refine hs.resolve_right fun he => ?_
  rw [takesValue, he] at h
  exact nomatch h

theorem frames_deliver_ne_nil {frames : List Frame} (v : Value) (h : frames ≠ []) :
    (deliver frames v).frames ≠ [] := by
  obtain ⟨f, fs, rfl⟩ := List.exists_cons_of_ne_nil h
  cases f <;> exact List.cons_ne_nil _ _

theorem isBegun_run {s s' : State} {ts : List Token} (hs : s.isBegun) (h : s.run ts = some s') :
    s'.isBegun := by
  induction ts generalizing s with
  | nil =>
    injection h with h
    subst h
    exact hs
  | cons t ts ih =>
    rw [run_cons] at h
    obtain ⟨s₁, hstep, hrun⟩ := Option.bind_eq_some_iff.1 h
    exact ih (isBegun_step hs hstep) hrun

end State

namespace Mode

/-- A word waits for letters. -/
def isSound : Mode → Prop
  | .word _ rest => '\x7b' ∉ rest
  | _ => True

theorem isSound_begin {c : Char} {ts : List Token} {m : Mode} (h : begin c = some (ts, m)) : m.isSound := by
  unfold begin at h
  split at h
  all_goals try (simp only [Option.some.injEq, Prod.mk.injEq] at h; obtain ⟨-, rfl⟩ := h; simp [isSound])
  split at h
  · simp only [Option.some.injEq, Prod.mk.injEq] at h
    obtain ⟨-, rfl⟩ := h
    trivial
  · exact nomatch h

theorem isSound_inString {d : StringDraft} {c : Char} {ts : List Token} {m : Mode}
    (h : inString d c = some (ts, m)) : m.isSound := by
  unfold inString at h
  split_ifs at h
  all_goals simp only [Option.some.injEq, Prod.mk.injEq] at h
  all_goals obtain ⟨-, rfl⟩ := h
  all_goals trivial

theorem isSound_inEscape {d : StringDraft} {c : Char} {ts : List Token} {m : Mode}
    (h : inEscape d c = some (ts, m)) : m.isSound := by
  unfold inEscape at h
  split at h
  all_goals try simp only [Option.some.injEq, Prod.mk.injEq] at h
  all_goals try obtain ⟨-, rfl⟩ := h
  all_goals trivial

theorem isSound_afterHex (d : StringDraft) (high : Option Nat) (v : Nat) : (afterHex d high v).isSound := by
  unfold afterHex
  split <;> split_ifs <;> trivial

theorem isSound_next {m m' : Mode} {c : Char} {ts : List Token} (hm : m.isSound)
    (h : m.next c = some (ts, m')) : m'.isSound := by
  cases m with
  | idle => exact isSound_begin h
  | string d => exact isSound_inString h
  | escape d high =>
    rw [next] at h
    split_ifs at h
    · simp only [Option.some.injEq, Prod.mk.injEq] at h
      obtain ⟨-, rfl⟩ := h
      trivial
    · exact isSound_inEscape h
    · exact isSound_inEscape h
  | hex d high count value =>
    rw [next] at h
    split at h
    · exact nomatch h
    · split_ifs at h
      all_goals simp only [Option.some.injEq, Prod.mk.injEq] at h
      all_goals obtain ⟨-, rfl⟩ := h
      · exact isSound_afterHex _ _ _
      · trivial
  | afterHigh d high =>
    rw [next] at h
    split_ifs at h
    · simp only [Option.some.injEq, Prod.mk.injEq] at h
      obtain ⟨-, rfl⟩ := h
      trivial
    · exact isSound_inString h
  | number d =>
    rw [next] at h
    split at h
    · simp only [Option.some.injEq, Prod.mk.injEq] at h
      obtain ⟨-, rfl⟩ := h
      trivial
    · split at h
      · rename_i hbegin
        simp only [Option.some.injEq, Prod.mk.injEq] at h
        obtain ⟨-, rfl⟩ := h
        exact isSound_begin hbegin
      · exact nomatch h
  | word token rest =>
    cases rest with
    | nil => exact nomatch h
    | cons r rest =>
      simp only [next] at h
      split_ifs at h
      all_goals simp only [Option.some.injEq, Prod.mk.injEq] at h
      all_goals obtain ⟨-, rfl⟩ := h
      · trivial
      · exact fun hmem => hm (List.mem_cons_of_mem _ hmem)

/-- A closing brace that completes no token is inside a string or no token at all. -/
theorem finish_of_next_brace {m m' : Mode} (h : m.next '\x7d' = some ([], m')) : m'.finish = none := by
  have hstring (d : StringDraft) (hd : inString d '\x7d' = some ([], m')) : m'.finish = none := by
    injection hd with hd
    injection hd with _ hd
    subst hd
    rfl
  cases m with
  | idle => exact nomatch h
  | string d => exact hstring d h
  | escape d high => exact nomatch h
  | hex d high count value => exact nomatch h
  | afterHigh d high => exact hstring d.spoil h
  | number d =>
    rw [next] at h
    have hpush : d.push '\x7d' = none := rfl
    rw [hpush] at h
    cases hd : d.finish <;> simp [hd, begin] at h
  | word token rest =>
    cases rest with
    | nil => exact nomatch h
    | cons r rest =>
      simp only [next] at h
      split_ifs at h
      all_goals simp only [Option.some.injEq, Prod.mk.injEq] at h
      · exact nomatch h.1
      · rw [← h.2]
        rfl

end Mode

namespace Reader

/-- Behind the first token of an array or object. -/
def IsBegun (r : Reader) : Prop := r.state.isBegun ∧ r.mode.isSound

theorem IsBegun.read {r r' : Reader} {c : Char} (hr : r.IsBegun) (h : r.read c = some r') : r'.IsBegun := by
  unfold Reader.read at h
  cases hnext : r.mode.next c with
  | none => simp [hnext] at h
  | some next =>
    simp only [hnext] at h
    obtain ⟨s, hrun, rfl⟩ := Option.map_eq_some_iff.1 h
    exact ⟨State.isBegun_run hr.1 hrun, Mode.isSound_next hr.2 hnext⟩

theorem IsBegun.readAll {r r' : Reader} {cs : List Char} (hr : r.IsBegun) (h : r.readAll cs = some r') :
    r'.IsBegun := by
  induction cs generalizing r with
  | nil =>
    injection h with h
    subst h
    exact hr
  | cons c cs ih =>
    obtain ⟨r₁, hread, hrest⟩ := Option.bind_eq_some_iff.1 h
    exact ih (hr.read hread) hrest

/-- Where a text has begun and may end, nothing more is expected. -/
theorem IsBegun.expect_of_result {r : Reader} {v : Value} (hr : r.IsBegun) (h : r.result = some v) :
    r.state.expect = .nothing := by
  obtain ⟨m, s⟩ := r
  unfold result at h
  cases m <;> simp only [Mode.finish] at h
  case idle =>
    simp only [State.run_nil] at h
    split at h
    · rename_i hs
      injection hs with hs
      subst hs
      rfl
    · exact nomatch h
  case number d =>
    cases hd : d.finish with
    | none => simp [hd] at h
    | some n =>
      simp only [hd, Option.map_some, State.run_cons, State.run_nil] at h
      cases hstep : s.step (.number n) with
      | none => simp [hstep] at h
      | some s' =>
        -- the number is inside something that is not complete
        obtain ⟨htakes, hbegin⟩ := State.takesValue_of_step (.inl ⟨n, rfl⟩) hstep
        injection hbegin with hbegin
        have hframes := State.frames_deliver_ne_nil (.number n) (State.frames_ne_nil hr.1 htakes)
        rw [hbegin] at hframes
        simp only [hstep, Option.bind_some] at h
        split at h
        · rename_i hs
          injection hs with hs
          rw [hs] at hframes
          exact absurd rfl hframes
        · exact nomatch h
  all_goals exact nomatch h

theorem result_of_open {s : State} (h : s.frames ≠ []) : (⟨.idle, s⟩ : Reader).result = none := by
  obtain ⟨f, fs, hf⟩ := List.exists_cons_of_ne_nil h
  obtain ⟨frames, e, v⟩ := s
  simp only at hf
  subst hf
  rfl

theorem read_of_nothing {r r' : Reader} {c : Char} (hr : r.state.expect = .nothing)
    (h : r.read c = some r') : r.mode.next c = some ([], r'.mode) ∧ r'.state = r.state := by
  unfold read at h
  cases hnext : r.mode.next c with
  | none => simp [hnext] at h
  | some next =>
    obtain ⟨tokens, m⟩ := next
    simp only [hnext] at h
    cases tokens with
    | nil =>
      injection h with h
      subst h
      exact ⟨rfl, rfl⟩
    | cons t ts => simp [State.step_of_nothing hr] at h

theorem state_readAll_of_nothing {r r' : Reader} {cs : List Char} (hr : r.state.expect = .nothing)
    (h : r.readAll cs = some r') : r'.state = r.state := by
  induction cs generalizing r with
  | nil =>
    injection h with h
    rw [h]
  | cons c cs ih =>
    obtain ⟨r₁, hread, hrest⟩ := Option.bind_eq_some_iff.1 h
    have hstate := (read_of_nothing hr hread).2
    rw [ih (by rw [hstate]; exact hr) hrest, hstate]

end Reader

theorem isBegun_of_brace {cs : List Char} {r : Reader}
    (h : Reader.start.readAll ('\x7b' :: cs) = some r) : r.IsBegun := by
  have hopen : Reader.start.read '\x7b' = some ⟨.idle, ⟨[.object [] none], .keyOrEnd, .null⟩⟩ := rfl
  rw [Reader.readAll_cons, hopen, Option.bind_some] at h
  have hbegun : (⟨.idle, ⟨[.object [] none], .keyOrEnd, .null⟩⟩ : Reader).IsBegun :=
    ⟨.inl (List.cons_ne_nil _ _), trivial⟩
  exact hbegun.readAll h

/-- A text between braces that is cut short anywhere is none. -/
theorem parse_cut {v : Value} {p q : List Char} (hwhole : parse ('\x7b' :: (p ++ q ++ ['\x7d'])) = some v) :
    parse ('\x7b' :: p) = none := by
  rw [parse_eq] at hwhole
  obtain ⟨last, hread, hresult⟩ := Option.bind_eq_some_iff.1 hwhole
  have hsplit : '\x7b' :: (p ++ q ++ ['\x7d']) = ('\x7b' :: p) ++ q ++ ['\x7d'] := by simp
  rw [hsplit, Reader.readAll_append, Reader.readAll_append] at hread
  obtain ⟨before, hbefore, hlast⟩ := Option.bind_eq_some_iff.1 hread
  obtain ⟨r, hr, hq⟩ := Option.bind_eq_some_iff.1 hbefore
  rw [parse_eq, hr, Option.bind_some]
  cases hcut : r.result with
  | none => rfl
  | some u =>
    exfalso
    -- nothing is expected behind `p`, so what follows completes no token, the last brace neither
    have hnothing := (isBegun_of_brace hr).expect_of_result hcut
    have hbrace : before.state.expect = .nothing := by
      rw [Reader.state_readAll_of_nothing hnothing hq]
      exact hnothing
    rw [Reader.readAll_cons] at hlast
    obtain ⟨r', hread', hr'⟩ := Option.bind_eq_some_iff.1 hlast
    injection hr' with hr'
    subst hr'
    have hfinish := Mode.finish_of_next_brace (Reader.read_of_nothing hbrace hread').1
    rw [Reader.result, hfinish] at hresult
    exact nomatch hresult

/-- Behind a brace and whatever follows it, no object can begin whose first name begins with `ti`: the
text would have to be inside an array or object, whose end is still to come, or inside a string, which
the quote of that name would close. -/
theorem parse_brace_append {v : Value} {p rest : List Char} (hv : v.isPlain = true)
    (hrender : v.render = '\x7b' :: '"' :: 't' :: 'i' :: rest) :
    parse ('\x7b' :: (p ++ v.render)) = none := by
  rw [parse_eq, ← List.cons_append, Reader.readAll_append]
  cases hread : Reader.start.readAll ('\x7b' :: p) with
  | none => rfl
  | some r =>
    have hbegun := isBegun_of_brace hread
    rw [Option.bind_some]
    obtain ⟨m, s⟩ := r
    have hclosed (d : StringDraft) :
        (⟨.string d, s⟩ : Reader).readAll ('"' :: 't' :: 'i' :: rest) = none := by
      have hquote : (⟨.string d, s⟩ : Reader).read '"' = (s.step (.string d.finish)).map (⟨.idle, ·⟩) := by
        cases hs : s.step (.string d.finish) <;> simp [Reader.read, Mode.next, Mode.inString, hs]
      rw [Reader.readAll_cons, hquote]
      cases s.step (.string d.finish) <;> rfl
    cases m with
    | idle =>
      by_cases hs : s.takesValue = true
      · rw [Reader.readAll_render v s hv hs, Option.bind_some]
        exact Reader.result_of_open (State.frames_deliver_ne_nil v (State.frames_ne_nil hbegun.1 hs))
      · have hopen : s.step .beginObject = none := by
          cases hstep : s.step .beginObject with
          | none => rfl
          | some s' => exact absurd (State.takesValue_of_step (.inr rfl) hstep).1 hs
        rw [hrender, Reader.readAll_cons]
        simp [Reader.read, Mode.next, Mode.begin, hopen]
    | string d =>
      have hopen : (⟨.string d, s⟩ : Reader).read '\x7b' = some ⟨.string (d.push '\x7b'), s⟩ := rfl
      rw [hrender, Reader.readAll_cons, hopen, Option.bind_some, hclosed]
      rfl
    | escape d high =>
      rw [hrender]
      rfl
    | hex d high count value =>
      rw [hrender]
      rfl
    | afterHigh d high =>
      have hopen : (⟨.afterHigh d high, s⟩ : Reader).read '\x7b' = some ⟨.string (d.spoil.push '\x7b'), s⟩ := rfl
      rw [hrender, Reader.readAll_cons, hopen, Option.bind_some, hclosed]
      rfl
    | number d =>
      have hopen : (⟨.number d, s⟩ : Reader).read '\x7b' = none := by
        have hpush : d.push '\x7b' = none := rfl
        cases hd : d.finish with
        | none => simp [Reader.read, Mode.next, hpush, hd]
        | some n =>
          -- behind a number no value can begin
          cases hstep : s.step (.number n) with
          | none => simp [Reader.read, Mode.next, hpush, hd, Mode.begin, hstep]
          | some s' =>
            have hbegin := (State.takesValue_of_step (.inl ⟨n, rfl⟩) hstep).2
            have hrefused : s'.step .beginObject = none := by
              injection hbegin with hbegin
              rw [← hbegin]
              unfold State.deliver
              split <;> rfl
            simp [Reader.read, Mode.next, hpush, hd, Mode.begin, hstep, hrefused]
      rw [hrender, Reader.readAll_cons, hopen]
      rfl
    | word token letters =>
      have hopen : (⟨.word token letters, s⟩ : Reader).read '\x7b' = none := by
        cases letters with
        | nil => rfl
        | cons c cs =>
          have hne : '\x7b' ≠ c := fun he => hbegun.2 (he ▸ List.mem_cons_self)
          simp [Reader.read, Mode.next, hne]
      rw [hrender, Reader.readAll_cons, hopen]
      rfl

end Steward.Json
