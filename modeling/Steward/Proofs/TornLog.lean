import Steward.Proofs.OutputRecord

/-!
# A log that was cut off

A write that is interrupted leaves the front of a line at the end of the log. Where the cut falls decides
what a reader makes of it. Between two characters the piece is passed over, or counts if only the line
break is missing. Inside a character it is no text, and the whole log is refused.

A log that is opened again goes on right behind the piece, so that the first new line is joined to it and
both are lost. What was written is read back just if the cut fell between two lines.
-/

set_option autoImplicit false

namespace Steward.OutputLog

open Text (Line)
open Text.Utf8 (Bytes encode encodeChar)

/-! ## Where a cut falls -/

/-- The entries whose text is among the first `n` bytes. -/
def survivors (n : Nat) : List Entry → List Entry
  | [] => []
  | e :: es =>
    if (encode e.toJson.render).length ≤ n then e :: survivors (n - (encode e.render).length) es else []

theorem encode_toJson_ne_nil (e : Entry) : encode e.toJson.render ≠ [] := by
  rw [Entry.render_toJson, Text.Utf8.encode_cons]
  exact fun h => Text.Utf8.encodeChar_ne_nil _ (List.append_eq_nil_iff.1 h).1

theorem survivors_zero (es : List Entry) : survivors 0 es = [] := by
  cases es with
  | nil => rfl
  | cons e es =>
    have hlength := List.length_pos_iff.2 (encode_toJson_ne_nil e)
    rw [survivors, if_neg (by omega)]

theorem length_encode_render (e : Entry) :
    (encode e.render).length = (encode e.toJson.render).length + 1 := by
  rw [encode_render, List.length_append]
  rfl

/-- A cut leaves whole lines, and behind them nothing or the front of one more line. -/
theorem take_renderAll (es : List Entry) (n : Nat) :
    (∃ front, front <+: es ∧ (renderAll es).take n = renderAll front ∧ survivors n es = front) ∨
    ∃ front e p q, front <+: es ∧ e ∈ es ∧ p ≠ [] ∧ encode e.toJson.render = p ++ q ∧
      (renderAll es).take n = renderAll front ++ p ∧
      survivors n es = front ++ if q = [] then [e] else [] := by
  induction es generalizing n with
  | nil => exact .inl ⟨[], List.prefix_rfl, List.take_nil, rfl⟩
  | cons e es ih =>
    have hlength := length_encode_render e
    by_cases hwhole : (encode e.render).length ≤ n
    · -- the first line is there as a whole
      have htake : (renderAll (e :: es)).take n =
          encode e.render ++ (renderAll es).take (n - (encode e.render).length) := by
        rw [renderAll_cons, List.take_append, List.take_of_length_le hwhole]
      have hfirst : survivors n (e :: es) = e :: survivors (n - (encode e.render).length) es := by
        rw [survivors, if_pos (by omega)]
      rcases ih (n - (encode e.render).length) with ⟨front, hp, ht, hs⟩ | ⟨front, e', p, q, hp, he, hne, hpq, ht, hs⟩
      · refine .inl ⟨e :: front, List.cons_prefix_cons.2 ⟨rfl, hp⟩, ?_, ?_⟩
        · rw [htake, ht, renderAll_cons]
        · rw [hfirst, hs]
      · refine .inr ⟨e :: front, e', p, q, List.cons_prefix_cons.2 ⟨rfl, hp⟩, List.mem_cons_of_mem _ he, hne,
          hpq, ?_, ?_⟩
        · rw [htake, ht, renderAll_cons, List.append_assoc]
        · rw [hfirst, hs, List.cons_append]
    · have htake : (renderAll (e :: es)).take n = (encode e.toJson.render).take n := by
        rw [renderAll_cons, encode_render, List.append_assoc, List.take_append_of_le_length (by omega)]
      by_cases hn : n = 0
      · subst hn
        exact .inl ⟨[], List.nil_prefix, rfl, survivors_zero _⟩
      · refine .inr ⟨[], e, (encode e.toJson.render).take n, (encode e.toJson.render).drop n, List.nil_prefix,
          List.mem_cons_self, ?_, (List.take_append_drop _ _).symm, htake, ?_⟩
        · intro hnil
          rcases List.take_eq_nil_iff.1 hnil with h | h
          · exact hn h
          · exact encode_toJson_ne_nil e h
        · have hrest : n - (encode e.render).length = 0 := by omega
          rw [survivors, hrest, survivors_zero, List.nil_append]
          simp only [List.drop_eq_nil_iff]

/-! ## The piece that is left -/

namespace Entry

/-- The text of an entry stands between braces. -/
theorem render_eq_braces (e : Entry) : ∃ body, e.toJson.render = '\x7b' :: (body ++ ['\x7d']) :=
  ⟨_, render_toJson e⟩

theorem head_of_render {e : Entry} {ds ds' : List Char} (h : e.toJson.render = ds ++ ds') (hds : ds ≠ []) :
    ∃ t, ds = '\x7b' :: t := by
  obtain ⟨body, hbody⟩ := render_eq_braces e
  obtain ⟨c, t, rfl⟩ := List.exists_cons_of_ne_nil hds
  rw [hbody, List.cons_append] at h
  exact ⟨t, by rw [(List.cons.inj h).1]⟩

theorem parse_cut {e : Entry} {ds ds' : List Char} (h : e.toJson.render = ds ++ ds') (hds : ds ≠ [])
    (hds' : ds' ≠ []) : parse ds = none := by
  obtain ⟨t, rfl⟩ := head_of_render h hds
  -- what is left of the piece without blanks at its end is shorter still
  obtain ⟨blanks, hblanks⟩ := Text.dropEndWhile_isPrefix Text.isBlank ('\x7b' :: t)
  have htrim : Text.trim ('\x7b' :: t) = Text.dropEndWhile Text.isBlank ('\x7b' :: t) := rfl
  rw [parse, htrim]
  cases hpiece : Text.dropEndWhile Text.isBlank ('\x7b' :: t) with
  | nil => rfl
  | cons c piece =>
    rw [hpiece, List.cons_append] at hblanks
    obtain ⟨rfl, rfl⟩ := List.cons.inj hblanks
    obtain ⟨body, hbody⟩ := render_eq_braces e
    obtain ⟨init, last, hlast⟩ := List.eq_nil_or_concat ds' |>.resolve_left hds'
    subst hlast
    have hwhole := Json.parse_render _ (isPlain_toJson e)
    have hends : body ++ ['\x7d'] = (piece ++ (blanks ++ init)) ++ [last] := by
      rw [hbody] at h
      simpa using (List.cons.inj h).2
    obtain ⟨hinit, hbrace⟩ := List.append_inj' hends rfl
    rw [hbody, hinit] at hwhole
    rw [Json.parse_cut hwhole]
    rfl

/-- The text of an entry right behind a piece of another, or behind the whole of it, makes no entry. -/
theorem parse_joined {e f : Entry} {ds ds' : List Char} (h : e.toJson.render = ds ++ ds') (hds : ds ≠ []) :
    parse (ds ++ f.toJson.render) = none := by
  obtain ⟨t, rfl⟩ := head_of_render h hds
  obtain ⟨body, hbody⟩ := render_eq_braces f
  have htrim : Text.trim ('\x7b' :: t ++ f.toJson.render) = '\x7b' :: (t ++ f.toJson.render) := by
    have hself := Text.trim_eq_self (show Text.isBlank '\x7b' = false by decide)
      (show Text.isBlank '\x7d' = false by decide) (t ++ '\x7b' :: body)
    rw [hbody]
    simpa using hself
  rw [parse, htrim, Json.parse_brace_append (isPlain_toJson f) (render_toJson f)]
  rfl

end Entry

theorem newline_not_mem_piece {e : Entry} {p q : Bytes} (h : encode e.toJson.render = p ++ q) :
    Line.newline ∉ p := by
  have hnone := Text.Utf8.newline_not_mem_encode (Entry.newline_not_mem_toJson e)
  rw [h] at hnone
  exact fun hm => hnone (List.mem_append_left _ hm)

/-- A piece that ends inside a character. -/
def EndsInside (p : Bytes) : Prop :=
  ∃ ds c p' q', p = encode ds ++ p' ∧ encodeChar c = p' ++ q' ∧ p' ≠ [] ∧ q' ≠ []

theorem EndsInside.ne_encode {p : Bytes} (h : EndsInside p) (front cs : List Char) :
    encode front ++ p ≠ encode cs := by
  obtain ⟨ds, c, p', q', rfl, hc, hp', hq'⟩ := h
  intro heq
  have hcut : Text.Utf8.decode (encode (front ++ ds) ++ p') = .error (.incomplete (encode (front ++ ds)).length) :=
    Text.Utf8.decode_cut hc hp' hq'
  rw [Text.Utf8.encode_append, List.append_assoc, heq, Text.Utf8.decode_encode] at hcut
  exact nomatch hcut

theorem EndsInside.ne_nil {p : Bytes} (h : EndsInside p) : p ≠ [] := by
  obtain ⟨ds, c, p', q', rfl, -, hp', -⟩ := h
  exact fun he => hp' (List.append_eq_nil_iff.1 he).2

/-- The piece is the front of the text of an entry, or ends inside one of its characters. -/
theorem piece_cases {e : Entry} {p q : Bytes} (h : encode e.toJson.render = p ++ q) (hp : p ≠ []) :
    (∃ ds ds', e.toJson.render = ds ++ ds' ∧ ds ≠ [] ∧ p = encode ds ∧ (q = [] ↔ ds' = [])) ∨
    EndsInside p := by
  rcases Text.Utf8.encode_eq_append h with
    ⟨ds, ds', hjson, rfl, rfl⟩ | ⟨ds, c, ds', p', q', -, hc, hp', hq', rfl, -⟩
  · refine .inl ⟨ds, ds', hjson, fun e => hp (by rw [e]; rfl), rfl, ?_⟩
    constructor
    · intro hq
      cases ds' with
      | nil => rfl
      | cons c cs =>
        rw [Text.Utf8.encode_cons] at hq
        exact absurd (List.append_eq_nil_iff.1 hq).1 (Text.Utf8.encodeChar_ne_nil c)
    · intro hds'
      rw [hds']
      rfl
  · exact .inr ⟨ds, c, p', q', rfl, hc, hp', hq'⟩

/-- A piece of a text is passed over, unless only the line break is missing. -/
theorem entries_piece {e : Entry} (he : e.timestamp.isValid = true) {ds ds' : List Char}
    (h : e.toJson.render = ds ++ ds') (hds : ds ≠ []) :
    entries (encode ds) = .ok (if ds' = [] then [e] else []) := by
  have hnone : '\n' ∉ ds := fun hm => Entry.newline_not_mem_toJson e (h ▸ List.mem_append_left _ hm)
  have hne : encode ds ≠ [] := by
    obtain ⟨c, cs, rfl⟩ := List.exists_cons_of_ne_nil hds
    exact fun hnil => Text.Utf8.encodeChar_ne_nil c (List.append_eq_nil_iff.1 hnil).1
  rw [entries, Line.ofBytes_open (Text.Utf8.newline_not_mem_encode hnone) hne, ofLines_cons_text rfl]
  by_cases hds' : ds' = []
  · subst hds'
    rw [List.append_nil] at h
    rw [← h, Entry.parse_toJson he]
    rfl
  · rw [Entry.parse_cut h hds hds', if_neg hds']
    rfl

theorem entries_endsInside {p : Bytes} (h : EndsInside p) (hnone : Line.newline ∉ p) :
    ∃ fault, entries p = .error fault := by
  have hline := Line.ofBytes_open hnone h.ne_nil
  obtain ⟨ds, c, p', q', rfl, hc, hp', hq'⟩ := h
  have hcut : Text.Utf8.decode (encode ds ++ p') = .error (.incomplete (encode ds).length) :=
    Text.Utf8.decode_cut hc hp' hq'
  have htext : Line.text ⟨encode ds ++ p', false⟩ = .error (.incomplete (encode ds).length) := by
    simp only [Line.text, Line.whole, Bool.false_eq_true, if_false, hcut]
    rfl
  refine ⟨.incomplete (encode ds).length, ?_⟩
  rw [entries, hline, ofLines, htext]
  rfl

/-- The line of an entry right behind a piece. -/
theorem ofBytes_joined {p : Bytes} (hnone : Line.newline ∉ p) (f : Entry) :
    Line.ofBytes (p ++ encode f.render) = [⟨p ++ encode f.toJson.render, true⟩] := by
  have hnone' : Line.newline ∉ p ++ encode f.toJson.render := by
    rw [List.mem_append, not_or]
    exact ⟨hnone, Text.Utf8.newline_not_mem_encode (Entry.newline_not_mem_toJson f)⟩
  rw [encode_render, ← List.append_assoc, Line.ofBytes_line hnone', Line.ofBytes_nil]

theorem entries_joined {e : Entry} {ds ds' : List Char} (h : e.toJson.render = ds ++ ds') (hds : ds ≠ [])
    (f : Entry) : entries (encode ds ++ encode f.render) = .ok [] := by
  have hnone : '\n' ∉ ds := fun hm => Entry.newline_not_mem_toJson e (h ▸ List.mem_append_left _ hm)
  have hbytes : encode ds ++ encode f.toJson.render = encode (ds ++ f.toJson.render) :=
    (Text.Utf8.encode_append _ _).symm
  rw [entries, ofBytes_joined (Text.Utf8.newline_not_mem_encode hnone), ofLines_cons_text hbytes,
    Entry.parse_joined h hds]
  rfl

theorem entries_endsInside_joined {p : Bytes} (h : EndsInside p) (hnone : Line.newline ∉ p) (f : Entry) :
    ∃ fault, entries (p ++ encode f.render) = .error fault := by
  obtain ⟨ds, c, p', q', rfl, hc, hp', hq'⟩ := h
  -- the brace in front of the new entry cannot complete the character
  obtain ⟨rest, hrest⟩ : ∃ rest, encode f.toJson.render ++ [Line.newline] = 0x7b :: rest := by
    rw [Entry.render_toJson]
    exact ⟨_, rfl⟩
  obtain ⟨fault, hfault⟩ : ∃ fault, Text.Utf8.decode (encode ds ++ (p' ++ 0x7b :: rest)) = .error fault :=
    Text.Utf8.decode_cut_append hc hp' hq' (by decide) rest
  have htext : Line.text ⟨encode ds ++ p' ++ encode f.toJson.render, true⟩ = .error fault := by
    simp only [Line.text, Line.whole, if_true]
    rw [List.append_assoc, hrest, List.append_assoc, hfault]
    rfl
  refine ⟨fault, ?_⟩
  rw [entries, ofBytes_joined hnone, ofLines, htext]
  rfl

/-! ## Reading behind a cut -/

theorem renderAll_eq_encode (es : List Entry) : renderAll es = encode (es.flatMap Entry.render) := by
  induction es with
  | nil => rfl
  | cons e es ih => rw [renderAll_cons, ih, List.flatMap_cons, Text.Utf8.encode_append]

theorem remainder_renderAll (es : List Entry) : Line.remainder (renderAll es) = [] := by
  induction es with
  | nil => rfl
  | cons e es ih => rw [renderAll_cons, Line.remainder_append, remainder_render, List.nil_append, ih]

theorem remainder_torn (es : List Entry) {p : Bytes} (hp : p ≠ []) (hnone : Line.newline ∉ p) :
    Line.remainder (renderAll es ++ p) = p := by
  rw [Line.remainder_append, remainder_renderAll, List.nil_append, Line.remainder, Line.ofBytes_open hnone hp]
  simp

theorem entries_renderAll_append {es : List Entry} (h : ∀ e ∈ es, e.timestamp.isValid = true) (bs : Bytes) :
    entries (renderAll es ++ bs) = (entries bs).map (es ++ ·) := by
  rw [entries_append (remainder_renderAll es), entries_renderAll h]
  rfl

/-- The piece, and new lines right behind it: the first of them is lost, and the piece with it. -/
theorem entries_torn_append {e : Entry} {ds ds' : List Char} (h : e.toJson.render = ds ++ ds') (hds : ds ≠ [])
    (f : Entry) {new : List Entry} (hnew : ∀ e ∈ new, e.timestamp.isValid = true) :
    entries (encode ds ++ renderAll (f :: new)) = .ok new := by
  have hends : Line.remainder (encode ds ++ encode f.render) = [] := by
    rw [encode_render, ← List.append_assoc]
    exact Line.remainder_newline _
  rw [renderAll_cons, ← List.append_assoc, entries_append hends, entries_joined h hds f,
    entries_renderAll hnew]
  rfl

theorem entries_endsInside_append {p : Bytes} (h : EndsInside p) (hnone : Line.newline ∉ p)
    (new : List Entry) : ∃ fault, entries (p ++ renderAll new) = .error fault := by
  cases new with
  | nil =>
    obtain ⟨fault, hfault⟩ := entries_endsInside h hnone
    exact ⟨fault, by simpa [renderAll] using hfault⟩
  | cons f new =>
    obtain ⟨fault, hfault⟩ := entries_endsInside_joined h hnone f
    have hends : Line.remainder (p ++ encode f.render) = [] := by
      rw [encode_render, ← List.append_assoc]
      exact Line.remainder_newline _
    refine ⟨fault, ?_⟩
    rw [renderAll_cons, ← List.append_assoc, entries_append hends, hfault]
    rfl

/-- Behind a cut all is read as it should be just if the cut fell between two lines, or between two
characters with nothing new behind it. -/
theorem entries_cut_append_iff {es new : List Entry} (hes : ∀ e ∈ es, e.timestamp.isValid = true)
    (hnew : ∀ e ∈ new, e.timestamp.isValid = true) (n : Nat) :
    entries ((renderAll es).take n ++ renderAll new) = .ok (survivors n es ++ new) ↔
      (∃ front, front <+: es ∧ (renderAll es).take n = renderAll front) ∨
      new = [] ∧ ∃ cs, (renderAll es).take n = encode cs := by
  rcases take_renderAll es n with
    ⟨front, hfront, htake, hkept⟩ | ⟨front, e, p, q, hfront, he, hp, hpq, htake, hkept⟩
  all_goals have hvalid : ∀ e ∈ front, e.timestamp.isValid = true := fun e he => hes e (hfront.subset he)
  all_goals rw [htake, hkept]
  · rw [entries_renderAll_append hvalid, entries_renderAll hnew]
    exact ⟨fun _ => .inl ⟨front, hfront, rfl⟩, fun _ => rfl⟩
  have hnone := newline_not_mem_piece hpq
  have hline : ¬ ∃ front', front' <+: es ∧ renderAll front ++ p = renderAll front' := by
    rintro ⟨front', -, heq⟩
    have hrest := remainder_torn front hp hnone
    rw [heq, remainder_renderAll] at hrest
    exact hp hrest.symm
  rw [List.append_assoc, entries_renderAll_append hvalid]
  rcases piece_cases hpq hp with ⟨ds, ds', hjson, hds, rfl, hq⟩ | hinside
  · cases new with
    | nil =>
      have htext : renderAll front ++ encode ds = encode (front.flatMap Entry.render ++ ds) := by
        rw [Text.Utf8.encode_append, ← renderAll_eq_encode]
      have hpiece : entries (encode ds ++ renderAll []) = .ok (if q = [] then [e] else []) := by
        simpa only [renderAll, List.flatMap_nil, List.append_nil, hq] using entries_piece (hes e he) hjson hds
      rw [hpiece, List.append_nil]
      exact ⟨fun _ => .inr ⟨rfl, _, htext⟩, fun _ => rfl⟩
    | cons f rest =>
      rw [entries_torn_append hjson hds f fun x hx => hnew x (List.mem_cons_of_mem _ hx)]
      constructor
      · intro heq
        have hlength := congrArg List.length (Except.ok.inj heq)
        simp only [List.length_append, List.length_cons] at hlength
        omega
      · rintro (hfront | ⟨hnil, -⟩)
        · exact absurd hfront hline
        · cases hnil
  · obtain ⟨fault, hfault⟩ := entries_endsInside_append hinside hnone new
    rw [hfault]
    constructor
    · intro heq
      cases heq
    · rintro (hfront | ⟨-, cs, hcs⟩)
      · exact absurd hfront hline
      · rw [renderAll_eq_encode] at hcs
        exact absurd hcs (hinside.ne_encode _ _)

theorem load_eq_ok_iff {fs : Files} {path : String} {place : Place} {bs : Bytes} {es : List Entry}
    (h : fs.Holds path place bs) : load fs path none = .ok es ↔ entries bs = .ok es := by
  cases hes : entries bs with
  | ok es' =>
    rw [load_of_holds h hes none, keepLast, Except.ok.injEq, Except.ok.injEq]
  | error fault =>
    have hload : load fs path none = .error (.io fault.message) := by
      have hbytes : ofBytes bs none = .error fault := by
        rw [ofBytes, show ofLines (Line.ofBytes bs) = .error fault from hes]
        rfl
      rw [load, h.exists, h.read]
      simp only [Bool.not_true, Bool.false_eq_true, if_false, hbytes]
    rw [hload]
    constructor <;> intro heq <;> cases heq

/-- A log of entries, cut off at any byte, opened again and written to in any order of turns. It is read as
it should be just if the cut fell between two characters; with new lines behind it, just if it fell
between two lines. -/
theorem read_after_cut_iff {fs fs' : Files} {name dir : String} {log : OutputLog} {es : List Entry} {n : Nat}
    (hfile : fs.read (pathFor name dir) = .ok ((renderAll es).take n))
    (hopen : openAt fs name dir = .ok (log, fs')) (hes : ∀ e ∈ es, e.timestamp.isValid = true)
    (turns : List Turn) (htimes : ∀ w d, .draft w d ∈ turns → d.now.isValid = true) :
    let new := (Desk.taken (fun _ => none) turns).map Draft.entry
    let files := (Desk.run ⟨log, fs', fun _ => none⟩ turns).files
    (load fs (pathFor name dir) none = .ok (survivors n es) ↔ ∃ cs, (renderAll es).take n = encode cs) ∧
    (load files (pathFor name dir) none = .ok (survivors n es ++ new) ↔
      (∃ front, front <+: es ∧ (renderAll es).take n = renderAll front) ∨
      new = [] ∧ ∃ cs, (renderAll es).take n = encode cs) := by
  intro new files
  have hnew : ∀ e ∈ new, e.timestamp.isValid = true := Desk.isValid_taken htimes
  obtain ⟨fs₁, hmade⟩ := makeDirectories_of_openAt hopen
  obtain ⟨place, hlog, hheld⟩ := holds_openAt hmade hopen (.inl hfile)
  have hafter : files.Holds (pathFor name dir) place ((renderAll es).take n ++ renderAll new) :=
    Desk.holds_run (s := ⟨log, fs', fun _ => none⟩) (by rw [hlog]) hheld turns
  obtain ⟨place', hbefore⟩ := Files.holds_of_read hfile
  refine ⟨?_, (load_eq_ok_iff hafter).trans (entries_cut_append_iff hes hnew n)⟩
  -- as it is, the log is one with nothing new behind it
  have hnone : ∀ e ∈ ([] : List Entry), e.timestamp.isValid = true := fun _ h => nomatch h
  have hcut := entries_cut_append_iff hes hnone n
  simp only [renderAll, List.flatMap_nil, List.append_nil, true_and] at hcut
  refine (load_eq_ok_iff hbefore).trans (hcut.trans ⟨?_, .inr⟩)
  rintro (⟨front, -, htake⟩ | htext)
  · exact ⟨_, htake.trans (renderAll_eq_encode front)⟩
  · exact htext

/-- A tree with a log that holds those bytes. -/
def logOf (bs : Bytes) : Files :=
  ⟨[], [(["logs"], .directory 0o755), (["logs", "mcpgo.log"], .file bs 0o644)]⟩

def noon : Timestamp := ⟨⟨2025, 6, 20⟩, 12, 0, 0, 0⟩

/-- Cut off between two lines, a log goes on as if nothing had happened. -/
theorem read_after_cut_between_lines :
    let es : List Entry := [⟨noon, .info, "first"⟩, ⟨noon, .stderr, "second"⟩]
    ∃ log fs', openAt (logOf ((renderAll es).take 70)) "mcpgo" "logs" = .ok (log, fs') ∧
      load (Desk.run ⟨log, fs', fun _ => none⟩ [.draft 0 ⟨noon, .error, "third"⟩, .write 0]).files
        "logs/mcpgo.log" none = .ok [⟨noon, .info, "first"⟩, ⟨noon, .error, "third"⟩] := by
  intro es
  have hopen : openAt (logOf ((renderAll es).take 70)) "mcpgo" "logs" =
      .ok (⟨"logs/mcpgo.log", some ["logs", "mcpgo.log"]⟩, logOf ((renderAll es).take 70)) := rfl
  have hfile : (logOf ((renderAll es).take 70)).read (pathFor "mcpgo" "logs") =
      .ok ((renderAll es).take 70) := rfl
  have hes : ∀ e ∈ es, e.timestamp.isValid = true := by decide
  have htimes : ∀ w d, Turn.draft w d ∈ [.draft 0 ⟨noon, .error, "third"⟩, .write 0] →
      d.now.isValid = true := by
    intro w d hd
    simp only [List.mem_cons, Turn.draft.injEq, reduceCtorEq, List.not_mem_nil, or_false] at hd
    rw [hd.2]
    decide
  have hkept : survivors 70 es = [⟨noon, .info, "first"⟩] := by decide +kernel
  have hnew : (Desk.taken (fun _ => none) [.draft 0 ⟨noon, .error, "third"⟩, .write 0]).map Draft.entry =
      [⟨noon, .error, "third"⟩] := by
    have htrim : Text.trimmed "third" = "third" := by decide
    exact congrArg (fun m => [(⟨noon, .error, m⟩ : Entry)]) htrim
  have hlines : (renderAll es).take 70 = renderAll [⟨noon, .info, "first"⟩] := by decide +kernel
  have hread := (read_after_cut_iff hfile hopen hes _ htimes).2.2 (.inl ⟨_, ⟨_, rfl⟩, hlines⟩)
  rw [hkept, hnew] at hread
  exact ⟨_, _, hopen, hread⟩

/-- Cut off inside a character, a log is refused. Cut off in front of a line break, it loses the line as soon
as another one is written, and that one too. -/
theorem cut_log_loses_lines :
    load (logOf ((renderAll [⟨noon, .info, "café"⟩]).take 66)) "logs/mcpgo.log" none =
      .error (.io "incomplete utf-8 byte sequence from index 65") ∧
    survivors 69 [⟨noon, .info, "first"⟩] = [⟨noon, .info, "first"⟩] ∧
    ∃ log fs', openAt (logOf ((renderAll [⟨noon, .info, "first"⟩]).take 69)) "mcpgo" "logs" = .ok (log, fs') ∧
      load (Desk.run ⟨log, fs', fun _ => none⟩ [.draft 0 ⟨noon, .info, "second"⟩, .write 0]).files
        "logs/mcpgo.log" none = .ok [] := by
  have hinside : load (logOf ((renderAll [⟨noon, .info, "café"⟩]).take 66)) "logs/mcpgo.log" none =
      .error (.io "incomplete utf-8 byte sequence from index 65") := by
    rfl
  have hopen (bs : Bytes) : openAt (logOf bs) "mcpgo" "logs" =
      .ok (⟨"logs/mcpgo.log", some ["logs", "mcpgo.log"]⟩, logOf bs) := by
    rfl
  refine ⟨hinside, by decide +kernel, _, _, hopen _, ?_⟩
  have hjson : (Entry.toJson ⟨noon, .info, "first"⟩).render =
      (Entry.toJson ⟨noon, .info, "first"⟩).render ++ [] := (List.append_nil _).symm
  have hcut : (renderAll [⟨noon, .info, "first"⟩]).take 69 =
      encode (Entry.toJson ⟨noon, .info, "first"⟩).render := by decide +kernel
  rw [hcut]
  generalize hd : (⟨noon, .info, "second"⟩ : Draft) = d
  have hafter : (Desk.run ⟨⟨"logs/mcpgo.log", some ["logs", "mcpgo.log"]⟩,
      logOf (encode (Entry.toJson ⟨noon, .info, "first"⟩).render), fun _ => none⟩
      [.draft 0 d, .write 0]).files.Holds "logs/mcpgo.log" ["logs", "mcpgo.log"]
        (encode (Entry.toJson ⟨noon, .info, "first"⟩).render ++ renderAll [d.entry]) :=
    Desk.holds_run rfl ⟨0o644, rfl⟩ _
  exact load_of_holds hafter (entries_torn_append hjson (List.cons_ne_nil _ _) _ fun _ h => nomatch h) none

end Steward.OutputLog
