import Steward.Proofs.JsonText

/-!
# JSON however it is spelled

One value has many texts: blanks stand between tokens, members come in any order, and a character of a string can
be escaped in several ways. `Spells`, `Content` and `Members` say which texts there are, without a word about how
they are read; `Reads` is what the reader makes of a text where a value may stand. Every spelling of a string and
every layout of an object is read for what it says (`reads_spelled`, `reads_object`).
-/

set_option autoImplicit false

namespace Steward.Json

/-! ## Spellings -/

/-- What may stand between two tokens. -/
def IsGap (cs : List Char) : Prop := ∀ c ∈ cs, c = ' ' ∨ c = '\n' ∨ c = '\t' ∨ c = '\r'

/-- The letters that may follow a backslash, with the characters they stand for. -/
def shortEscapes : List (Char × Char) :=
  [('"', '"'), ('\\', '\\'), ('/', '/'), ('b', '\x08'), ('f', '\x0c'), ('n', '\n'), ('r', '\r'), ('t', '\t')]

/-- Four hexadecimal digits and their value. -/
def Quad (ds : List Char) (n : Nat) : Prop := ds.length = 4 ∧ Text.digitsFrom 16 0 ds = some n

/-- The characters of a text, and how they are spelled between quotes. -/
inductive Spells : List Char → List Char → Prop where
  | nil : Spells [] []
  | plain {c : Char} {text cs : List Char} (quote : c ≠ '"') (slash : c ≠ '\\') (control : 0x20 ≤ c.toNat)
      (rest : Spells text cs) : Spells (c :: text) (c :: cs)
  | short {e c : Char} {text cs : List Char} (escape : (e, c) ∈ shortEscapes) (rest : Spells text cs) :
      Spells (c :: text) ('\\' :: e :: cs)
  | code {c : Char} {ds text cs : List Char} (digits : Quad ds c.toNat) (rest : Spells text cs) :
      Spells (c :: text) ('\\' :: 'u' :: (ds ++ cs))
  | pair {c : Char} {h l : Nat} {hs ls text cs : List Char} (highDigits : Quad hs h) (lowDigits : Quad ls l)
      (high : 0xD800 ≤ h ∧ h ≤ 0xDBFF) (low : 0xDC00 ≤ l ∧ l ≤ 0xDFFF)
      (code : c.toNat = 0x10000 + (h - 0xD800) * 1024 + (l - 0xDC00)) (rest : Spells text cs) :
      Spells (c :: text) ('\\' :: 'u' :: (hs ++ '\\' :: 'u' :: (ls ++ cs)))

/-- What may stand between quotes, whether or not it spells a text. -/
inductive Content : List Char → Prop where
  | nil : Content []
  | plain {c : Char} {cs : List Char} (quote : c ≠ '"') (slash : c ≠ '\\') (control : 0x20 ≤ c.toNat)
      (rest : Content cs) : Content (c :: cs)
  | short {e c : Char} {cs : List Char} (escape : (e, c) ∈ shortEscapes) (rest : Content cs) :
      Content ('\\' :: e :: cs)
  | code {n : Nat} {ds cs : List Char} (digits : Quad ds n) (rest : Content cs) :
      Content ('\\' :: 'u' :: (ds ++ cs))

/-- Whatever spells a text may stand between quotes. -/
theorem Spells.content {text cs : List Char} (h : Spells text cs) : Content cs := by
  induction h with
  | nil => exact .nil
  | plain quote slash control _ ih => exact .plain quote slash control ih
  | short escape _ ih => exact .short escape ih
  | code digits _ ih => exact .code digits ih
  | pair highDigits lowDigits _ _ _ _ ih => exact .code highDigits (.code lowDigits ih)

/-- What needs no escapes spells itself. -/
theorem spells_plain {cs text ds : List Char} (h : ∀ c ∈ cs, c ≠ '"' ∧ c ≠ '\\' ∧ 0x20 ≤ c.toNat)
    (rest : Spells text ds) : Spells (cs ++ text) (cs ++ ds) := by
  induction cs with
  | nil => exact rest
  | cons c cs ih =>
    obtain ⟨⟨quote, slash, control⟩, hrest⟩ := List.forall_mem_cons.1 h
    exact .plain quote slash control (ih hrest)

/-- A string literal that spells the text. -/
def Spelled (text : String) (cs : List Char) : Prop :=
  ∃ body, Spells text.toList body ∧ cs = '"' :: (body ++ ['"'])

/-- Any string literal. -/
def IsString (cs : List Char) : Prop := ∃ body, Content body ∧ cs = '"' :: (body ++ ['"'])

theorem Spelled.isString {text : String} {cs : List Char} (h : Spelled text cs) : IsString cs := by
  obtain ⟨body, hbody, rfl⟩ := h
  exact ⟨body, hbody.content, rfl⟩

/-- One member: its name, the text of its value and blanks around them. -/
def Member (name : String) (value cs : List Char) : Prop :=
  ∃ g₁ key g₂ g₃ g₄, IsGap g₁ ∧ Spelled name key ∧ IsGap g₂ ∧ IsGap g₃ ∧ IsGap g₄ ∧
    cs = g₁ ++ (key ++ (g₂ ++ ':' :: (g₃ ++ (value ++ g₄))))

/-- Members as they stand between braces. -/
inductive Members : List (String × List Char) → List Char → Prop where
  | last {name : String} {value cs : List Char} (member : Member name value cs) : Members [(name, value)] cs
  | cons {name : String} {value cs : List Char} {ms : List (String × List Char)} {cs' : List Char}
      (member : Member name value cs) (rest : Members ms cs') :
      Members ((name, value) :: ms) (cs ++ ',' :: cs')

/-- An object with these members. -/
def ObjectText (ms : List (String × List Char)) (cs : List Char) : Prop :=
  ∃ body, Members ms body ∧ cs = '\x7b' :: (body ++ ['\x7d'])

/-! ## Reading them -/

namespace Reader

/-- A character that completes no token is nothing to the parser. -/
theorem readAll_silent {m m' : Mode} {c : Char} (h : m.next c = some ([], m')) (cs : List Char) (s : State) :
    (⟨m, s⟩ : Reader).readAll (c :: cs) = (⟨m', s⟩ : Reader).readAll cs := by
  rw [readAll_cons, read, h]
  rfl

theorem readAll_gap {cs : List Char} (h : IsGap cs) (s : State) :
    (⟨.idle, s⟩ : Reader).readAll cs = some ⟨.idle, s⟩ := by
  induction cs with
  | nil => rfl
  | cons c cs ih =>
    obtain ⟨hc, hrest⟩ := List.forall_mem_cons.1 h
    have hread : (⟨.idle, s⟩ : Reader).read c = some ⟨.idle, s⟩ := by
      rcases hc with rfl | rfl | rfl | rfl <;> rfl
    rw [readAll_cons, hread, Option.bind_some, ih hrest]

theorem readAll_quad {ds : List Char} {n : Nat} (h : Quad ds n) (d : StringDraft) (high : Option Nat) (s : State) :
    (⟨.hex d high 0 0, s⟩ : Reader).readAll ds = some ⟨Mode.afterHex d high n, s⟩ := by
  -- the digits still to come, by how many were read
  have rest : ∀ (ds : List Char) (count value : Nat), ds ≠ [] → count + ds.length = 4 →
      Text.digitsFrom 16 value ds = some n →
      (⟨.hex d high count value, s⟩ : Reader).readAll ds = some ⟨Mode.afterHex d high n, s⟩ := by
    intro ds
    induction ds with
    | nil => exact fun _ _ hne => absurd rfl hne
    | cons c cs ih =>
      intro count value _ hcount hvalue
      rw [Text.digitsFrom] at hvalue
      split at hvalue
      · rename_i x hx
        split at hvalue
        · cases cs with
          | nil =>
            obtain rfl : count = 3 := by simpa using hcount
            obtain rfl := Option.some.inj hvalue
            simp [read, Mode.next, hx]
          | cons c' cs =>
            have hthree : (count == 3) = false := by
              rw [List.length_cons, List.length_cons] at hcount
              exact beq_false_of_ne (by omega)
            have hread : (⟨.hex d high count value, s⟩ : Reader).read c =
                some ⟨.hex d high (count + 1) (value * 16 + x), s⟩ := by
              simp [read, Mode.next, hx, hthree]
            rw [readAll_cons, hread, Option.bind_some]
            refine ih (count + 1) (value * 16 + x) (List.cons_ne_nil _ _) ?_ hvalue
            rw [List.length_cons] at hcount
            omega
        · cases hvalue
      · cases hvalue
  refine rest ds 0 0 ?_ (by rw [h.1]) h.2
  rintro rfl
  cases h.1

/-- A backslash and `u`. -/
theorem readAll_code {cs : List Char} (d : StringDraft) (s : State) :
    (⟨.string d, s⟩ : Reader).readAll ('\\' :: 'u' :: cs) = (⟨.hex d none 0 0, s⟩ : Reader).readAll cs := rfl

/-- A letter behind a backslash is one character of the string. -/
theorem next_short {e c : Char} (h : (e, c) ∈ shortEscapes) (d : StringDraft) (high : Option Nat) :
    (Mode.escape d high).next e =
      some ([], .string ((if high.isSome then d.spoil else d).push c)) := by
  simp only [shortEscapes, List.mem_cons, Prod.mk.injEq, List.not_mem_nil, or_false] at h
  rcases h with ⟨rfl, rfl⟩ | ⟨rfl, rfl⟩ | ⟨rfl, rfl⟩ | ⟨rfl, rfl⟩ | ⟨rfl, rfl⟩ | ⟨rfl, rfl⟩ | ⟨rfl, rfl⟩ | ⟨rfl, rfl⟩
  all_goals rfl

theorem inString_plain {c : Char} (quote : c ≠ '"') (slash : c ≠ '\\') (control : 0x20 ≤ c.toNat)
    (d : StringDraft) : Mode.inString d c = some ([], .string (d.push c)) := by
  rw [Mode.inString, if_neg (by simpa using quote), if_neg (by simpa using slash),
    if_neg (Nat.not_lt.2 control)]

theorem afterHex_char (d : StringDraft) (c : Char) : Mode.afterHex d none c.toNat = .string (d.push c) := by
  have hvalid : c.toNat < 0xD800 ∨ 0xDFFF < c.toNat ∧ c.toNat < 0x110000 := c.valid
  have hhigh : Mode.isHigh c.toNat = false := by
    simp only [Mode.isHigh, Bool.and_eq_false_iff, decide_eq_false_iff_not]
    omega
  have hlow : Mode.isLow c.toNat = false := by
    simp only [Mode.isLow, Bool.and_eq_false_iff, decide_eq_false_iff_not]
    omega
  rw [Mode.afterHex, hhigh, hlow, Char.ofNat_toNat]
  rfl

theorem readAll_pair {h l : Nat} {hs ls : List Char} (highDigits : Quad hs h) (lowDigits : Quad ls l)
    (high : 0xD800 ≤ h ∧ h ≤ 0xDBFF) (low : 0xDC00 ≤ l ∧ l ≤ 0xDFFF) (d : StringDraft) (s : State) :
    (⟨.string d, s⟩ : Reader).readAll ('\\' :: 'u' :: (hs ++ '\\' :: 'u' :: ls)) =
      some ⟨.string (d.push (Char.ofNat (0x10000 + (h - 0xD800) * 1024 + (l - 0xDC00)))), s⟩ := by
  have hhigh : Mode.isHigh h = true := by simp [Mode.isHigh, high]
  have hlow : Mode.isLow l = true := by simp [Mode.isLow, low]
  have hfirst : Mode.afterHex d none h = .afterHigh d h := by rw [Mode.afterHex, hhigh]; rfl
  have hsecond : (⟨.afterHigh d h, s⟩ : Reader).readAll ('\\' :: 'u' :: ls) =
      (⟨.hex d (some h) 0 0, s⟩ : Reader).readAll ls := rfl
  rw [readAll_code, readAll_append, readAll_quad highDigits, Option.bind_some, hfirst, hsecond,
    readAll_quad lowDigits, Mode.afterHex, hlow]
  rfl

/-- What spells a text is read for that text. -/
theorem readAll_spells {text cs : List Char} (h : Spells text cs) (d : StringDraft) (s : State) :
    (⟨.string d, s⟩ : Reader).readAll cs = some ⟨.string { d with chars := text.reverse ++ d.chars }, s⟩ := by
  induction h generalizing d with
  | nil => rfl
  | @plain c text cs quote slash control _ ih =>
    have hread : (⟨.string d, s⟩ : Reader).read c = some ⟨.string (d.push c), s⟩ := by
      simp [read, Mode.next, inString_plain quote slash control]
    rw [readAll_cons, hread, Option.bind_some, ih]
    simp [StringDraft.push]
  | @short e c text cs escape _ ih =>
    have hslash : (⟨.string d, s⟩ : Reader).read '\\' = some ⟨.escape d none, s⟩ := rfl
    have hread : (⟨.escape d none, s⟩ : Reader).read e = some ⟨.string (d.push c), s⟩ := by
      simp [read, next_short escape]
    rw [readAll_cons, hslash, Option.bind_some, readAll_cons, hread, Option.bind_some, ih]
    simp [StringDraft.push]
  | @code c ds text cs digits _ ih =>
    rw [readAll_code, readAll_append, readAll_quad digits, Option.bind_some, afterHex_char, ih]
    simp [StringDraft.push]
  | @pair c h l hs ls text cs highDigits lowDigits high low code _ ih =>
    have hsplit : '\\' :: 'u' :: (hs ++ '\\' :: 'u' :: (ls ++ cs)) =
        '\\' :: 'u' :: (hs ++ '\\' :: 'u' :: ls) ++ cs := by simp
    rw [hsplit, readAll_append, readAll_pair highDigits lowDigits high low, Option.bind_some, ← code,
      Char.ofNat_toNat, ih]
    simp [StringDraft.push]

/-- Inside a string, and not in the middle of an escape. -/
def InText (m : Mode) : Prop := (∃ d, m = .string d) ∨ ∃ d high, m = .afterHigh d high

theorem inText_afterHex (d : StringDraft) (high : Option Nat) (n : Nat) : InText (Mode.afterHex d high n) := by
  unfold Mode.afterHex
  split
  · split
    · exact .inl ⟨_, rfl⟩
    · split
      · exact .inr ⟨_, _, rfl⟩
      · exact .inl ⟨_, rfl⟩
  · split
    · exact .inr ⟨_, _, rfl⟩
    · split <;> exact .inl ⟨_, rfl⟩

namespace InText

variable {m : Mode}

theorem next_plain (h : InText m) {c : Char} (quote : c ≠ '"') (slash : c ≠ '\\') (control : 0x20 ≤ c.toNat) :
    ∃ d, m.next c = some ([], .string d) := by
  rcases h with ⟨d, rfl⟩ | ⟨d, high, rfl⟩
  · exact ⟨d.push c, by simp [Mode.next, inString_plain quote slash control]⟩
  · exact ⟨d.spoil.push c, by simp [Mode.next, slash, inString_plain quote slash control]⟩

theorem next_slash (h : InText m) : ∃ d high, m.next '\\' = some ([], .escape d high) := by
  rcases h with ⟨d, rfl⟩ | ⟨d, high, rfl⟩
  · exact ⟨d, none, rfl⟩
  · exact ⟨d, some high, rfl⟩

theorem next_quote (h : InText m) : ∃ literal, m.next '"' = some ([.string literal], .idle) := by
  rcases h with ⟨d, rfl⟩ | ⟨d, high, rfl⟩
  · exact ⟨d.finish, rfl⟩
  · exact ⟨d.spoil.finish, rfl⟩

/-- Whatever stands between quotes, the reader gets to their end. -/
theorem readAll {cs : List Char} (h : InText m) (hcs : Content cs) :
    ∃ m', InText m' ∧ ∀ s, (⟨m, s⟩ : Reader).readAll cs = some ⟨m', s⟩ := by
  induction hcs generalizing m with
  | nil => exact ⟨m, h, fun _ => rfl⟩
  | plain quote slash control _ ih =>
    obtain ⟨d, hnext⟩ := h.next_plain quote slash control
    obtain ⟨m', hm', hrest⟩ := ih (.inl ⟨d, rfl⟩)
    exact ⟨m', hm', fun s => by rw [readAll_silent hnext, hrest]⟩
  | @short e c cs escape _ ih =>
    obtain ⟨d, high, hslash⟩ := h.next_slash
    obtain ⟨m', hm', hrest⟩ := ih (.inl ⟨(if high.isSome then d.spoil else d).push c, rfl⟩)
    exact ⟨m', hm', fun s => by rw [readAll_silent hslash, readAll_silent (next_short escape d high), hrest]⟩
  | @code n ds cs digits _ ih =>
    obtain ⟨d, high, hslash⟩ := h.next_slash
    have hu : (Mode.escape d high).next 'u' = some ([], .hex d high 0 0) := rfl
    obtain ⟨m', hm', hrest⟩ := ih (inText_afterHex d high n)
    refine ⟨m', hm', fun s => ?_⟩
    rw [readAll_silent hslash, readAll_silent hu, readAll_append, readAll_quad digits, Option.bind_some, hrest]

end InText

/-! ## Values -/

/-- The text stands for the value wherever a value may stand. -/
def Reads (cs : List Char) (v : Value) : Prop :=
  ∀ s : State, s.takesValue = true → (⟨.idle, s⟩ : Reader).readAll cs = some ⟨.idle, State.deliver s.frames v⟩

/-- A string literal is one token. -/
theorem readAll_spelled {text : String} {cs : List Char} (h : Spelled text cs) (s : State) :
    (⟨.idle, s⟩ : Reader).readAll cs = (s.step (.string (some text))).map (⟨.idle, ·⟩) := by
  obtain ⟨body, hbody, rfl⟩ := h
  have hopen : Mode.idle.next '"' = some ([], .string .empty) := rfl
  rw [readAll_silent hopen, readAll_append, readAll_spells hbody, Option.bind_some]
  simp [read, Mode.next, Mode.inString, StringDraft.finish, StringDraft.empty]

theorem reads_spelled {text : String} {cs : List Char} (h : Spelled text cs) : Reads cs (.text text) := by
  intro s hs
  have hstep := State.step_of_takesValue hs (show Token.string (some text) ≠ .endArray by simp)
  rw [readAll_spelled h, hstep]
  rfl

theorem reads_string {cs : List Char} (h : IsString cs) : ∃ literal, Reads cs (.string literal) := by
  obtain ⟨body, hbody, rfl⟩ := h
  have hopen : Mode.idle.next '"' = some ([], .string .empty) := rfl
  obtain ⟨m, hm, hread⟩ := InText.readAll (.inl ⟨.empty, rfl⟩) hbody
  obtain ⟨literal, hclose⟩ := hm.next_quote
  refine ⟨literal, fun s hs => ?_⟩
  have hstep := State.step_of_takesValue hs (show Token.string literal ≠ .endArray by simp)
  rw [readAll_silent hopen, readAll_append, hread, Option.bind_some]
  simp [read, hclose, hstep, State.beginValue]

theorem readAll_member {name : String} {value cs : List Char} (h : Member name value cs) {v : Value}
    (hv : Reads value v) {s : State} (hs : s.takesKey = true) {done : List (Literal × Value)} {key : Literal}
    {rest : List Frame} (hframes : s.frames = .object done key :: rest) :
    (⟨.idle, s⟩ : Reader).readAll cs =
      some ⟨.idle, ⟨.object ((some name, v) :: done) none :: rest, .separator, .null⟩⟩ := by
  obtain ⟨g₁, spelled, g₂, g₃, g₄, h₁, hname, h₂, h₃, h₄, rfl⟩ := h
  have hkey : (⟨.idle, s⟩ : Reader).readAll spelled =
      some ⟨.idle, ⟨.object done (some name) :: rest, .colon, .null⟩⟩ := by
    rw [readAll_spelled hname, State.step_of_takesKey _ hs, hframes]
    rfl
  have hcolon : (⟨.idle, ⟨.object done (some name) :: rest, .colon, .null⟩⟩ : Reader).read ':' =
      some ⟨.idle, ⟨.object done (some name) :: rest, .value, .null⟩⟩ := rfl
  rw [readAll_append, readAll_gap h₁, Option.bind_some, readAll_append, hkey, Option.bind_some,
    readAll_append, readAll_gap h₂, Option.bind_some, readAll_cons, hcolon, Option.bind_some,
    readAll_append, readAll_gap h₃, Option.bind_some, readAll_append, hv _ rfl, Option.bind_some, readAll_gap h₄]
  rfl

theorem readAll_members {ms : List (String × List Char)} {cs : List Char} (h : Members ms cs)
    {f : String × List Char → Value} (hf : ∀ m ∈ ms, Reads m.2 (f m)) {s : State} (hs : s.takesKey = true)
    {done : List (Literal × Value)} {key : Literal} {rest : List Frame}
    (hframes : s.frames = .object done key :: rest) :
    (⟨.idle, s⟩ : Reader).readAll cs =
      some ⟨.idle, ⟨.object ((ms.map fun m => (some m.1, f m)).reverse ++ done) none :: rest,
        .separator, .null⟩⟩ := by
  induction h generalizing s done key with
  | last member => exact readAll_member member (hf _ List.mem_cons_self) hs hframes
  | @cons name value cs ms cs' member _ ih =>
    have hfirst := readAll_member member (hf _ List.mem_cons_self) hs hframes
    have hcomma : (⟨.idle, ⟨.object ((some name, f (name, value)) :: done) none :: rest, .separator, .null⟩⟩ :
        Reader).read ',' =
          some ⟨.idle, ⟨.object ((some name, f (name, value)) :: done) none :: rest, .key, .null⟩⟩ := rfl
    rw [readAll_append, hfirst, Option.bind_some, readAll_cons, hcomma, Option.bind_some,
      ih (fun m hm => hf m (List.mem_cons_of_mem _ hm)) rfl rfl]
    simp

/-- **An object is read for its members**, whatever their order and whatever stands between them. -/
theorem reads_object {ms : List (String × List Char)} {cs : List Char} (h : ObjectText ms cs)
    {f : String × List Char → Value} (hf : ∀ m ∈ ms, Reads m.2 (f m)) :
    Reads cs (.ofMembers (ms.map fun m => (m.1, f m))) := by
  obtain ⟨body, hbody, rfl⟩ := h
  intro s hs
  have hopen : (⟨.idle, s⟩ : Reader).read '\x7b' =
      some ⟨.idle, ⟨.object [] none :: s.frames, .keyOrEnd, .null⟩⟩ := by
    have hstep := State.step_of_takesValue hs (show Token.beginObject ≠ .endArray by simp)
    simp [read, Mode.next, Mode.begin, hstep, State.beginValue]
  rw [readAll_cons, hopen, Option.bind_some, readAll_append, readAll_members hbody hf rfl rfl, Option.bind_some]
  simp [read, Mode.next, Mode.begin, State.step, State.endObject, Value.ofMembers, Function.comp_def]

end Reader

/-- A text that stands for a value, with blanks around it. -/
theorem parse_of_reads {cs g₁ g₂ : List Char} {v : Value} (h : Reader.Reads cs v) (h₁ : IsGap g₁) (h₂ : IsGap g₂) :
    parse (g₁ ++ (cs ++ g₂)) = some v := by
  rw [parse_eq, Reader.start, Reader.readAll_append, Reader.readAll_gap h₁, Option.bind_some,
    Reader.readAll_append, h .start rfl, Option.bind_some, Reader.readAll_gap h₂]
  rfl

end Steward.Json
