import Steward.OutputLog.File
import Steward.Proofs.Encoding
import Steward.Proofs.FileTree
import Steward.Proofs.JsonText
import Steward.Proofs.Moments

/-!
# The output log keeps what is written to it

An entry takes one line of its own, whatever its message holds, and is read back from that line. So a
log that is read after any number of writes gives what it gave before and then the entries written,
in the order in which the writers got hold of the file.
-/

set_option autoImplicit false

namespace Steward

/-! ## One entry -/

namespace Json

theorem newline_not_mem_escapeChar (c : Char) : '\n' ∉ escapeChar c := by
  unfold escapeChar
  split
  all_goals try decide
  rename_i hnewline _ _
  split
  · rename_i hlow
    have hhigh (d : Nat) (hd : d < 16) : '\n' ≠ d.digitChar := by
      have table : ∀ d : Fin 16, '\n' ≠ d.val.digitChar := by decide
      exact table ⟨d, hd⟩
    rw [Reader.toList_hexLower hlow]
    simp [hhigh (c.toNat / 16) (by omega), hhigh (c.toNat % 16) (by omega)]
  · simpa using fun e => hnewline e.symm

theorem newline_not_mem_quote (s : String) : '\n' ∉ quote s := by
  simp only [quote, List.cons_append, List.mem_cons, List.mem_append, List.mem_flatMap,
    List.not_mem_nil, or_false, not_or, not_exists, not_and]
  exact ⟨by decide, fun c _ => newline_not_mem_escapeChar c, by decide⟩

end Json

namespace OutputLog

theorem Level.ofName?_name (l : Level) : Level.ofName? l.name = some l := by
  cases l <;> decide

namespace Entry

/-- The members of the object on the line of an entry. -/
theorem render_toJson (e : Entry) :
    e.toJson.render = '\x7b' :: ((Json.quote "timestamp" ++ ':' :: Json.quote e.timestamp.render ++
      ',' :: (Json.quote "level" ++ ':' :: Json.quote e.level.name ++
        ',' :: (Json.quote "message" ++ ':' :: Json.quote e.message))) ++ ['\x7d']) := rfl

theorem isPlain_toJson (e : Entry) : e.toJson.isPlain = true := rfl

theorem newline_not_mem_toJson (e : Entry) : '\n' ∉ e.toJson.render := by
  rw [render_toJson]
  simp [Json.newline_not_mem_quote]

theorem trim_toJson (e : Entry) : Text.trim e.toJson.render = e.toJson.render := by
  rw [render_toJson, ← List.cons_append]
  exact Text.trim_eq_self (by decide) (by decide) _

theorem ofDatum_toJson {e : Entry} (h : e.timestamp.isValid = true) :
    ofDatum (.ofJson e.toJson) = some e := by
  obtain ⟨now, level, message⟩ := e
  have hdatum : Datum.ofJson (toJson ⟨now, level, message⟩) =
      .members [(some "timestamp", .text (some now.render)), (some "level", .text (some level.name)),
        (some "message", .text (some message))] := rfl
  have hfields : Field.ofDatum .refused ["timestamp", "level", "message"]
      (.ofJson (toJson ⟨now, level, message⟩)) =
        some [.given (.text (some now.render)), .given (.text (some level.name)),
          .given (.text (some message))] := by
    rw [hdatum]
    simp [Field.ofDatum, Field.byName]
  have htime : timestamp? (.text (some now.render)) = some now := by
    simp only [timestamp?, Datum.text?, Option.bind_some]
    exact Timestamp.parse_render h
  have hlevel : Level.ofDatum (.text (some level.name)) = some level := Level.ofName?_name level
  have hmessage : Datum.text? (.text (some message)) = some message := rfl
  simp [ofDatum, hfields, Field.required, htime, hlevel, hmessage]

/-- An entry is read back from its line. -/
theorem parse_toJson {e : Entry} (h : e.timestamp.isValid = true) : parse e.toJson.render = some e := by
  rw [parse, trim_toJson, Json.parse_render _ (isPlain_toJson e), Option.bind_some, ofDatum_toJson h]

/-- The line break does not count. -/
theorem parse_chomp (cs : List Char) : parse (Text.Line.chomp cs) = parse cs := by
  rw [parse, parse, Text.Line.trim_chomp]

theorem parse_append_blanks {ds : List Char} (h : ∀ c ∈ ds, Text.isBlank c = true) (cs : List Char) :
    parse (cs ++ ds) = parse cs := by
  rw [parse, parse, Text.trim_append h]

end Entry

/-! ## Many lines -/

open Text (Line)
open Text.Utf8 (Bytes encode)

theorem ofLines_cons_text {l : Line} {cs : List Char} (h : l.bytes = encode cs) (ls : List Line) :
    ofLines (l :: ls) = (ofLines ls).map ((Entry.parse cs).toList ++ ·) := by
  obtain ⟨ds, hdecode, hblank⟩ := Line.decode_whole h
  have htext : l.text = .ok (Line.chomp (cs ++ ds)) := by
    rw [Line.text, hdecode]
    rfl
  simp only [ofLines, htext]
  rw [← Entry.parse_append_blanks hblank cs, ← Entry.parse_chomp (cs ++ ds)]
  cases ofLines ls <;> rfl

/-- Lines that hold texts: those that are entries count, the others are passed over. -/
theorem ofLines_texts {ls : List Line} {ts : List (List Char)} (h : ls.map (·.bytes) = ts.map encode) :
    ofLines ls = .ok (ts.filterMap Entry.parse) := by
  induction ts generalizing ls with
  | nil =>
    obtain rfl := List.map_eq_nil_iff.1 h
    rfl
  | cons t ts ih =>
    obtain ⟨l, ls, rfl, hl, hls⟩ := List.map_eq_cons_iff.1 h
    rw [ofLines_cons_text hl, ih hls, List.filterMap_cons]
    cases Entry.parse t <;> rfl

theorem ofLines_append (ls ms : List Line) :
    ofLines (ls ++ ms) = (ofLines ls).bind fun es => (ofLines ms).map (es ++ ·) := by
  induction ls with
  | nil =>
    simp only [List.nil_append, ofLines]
    cases ofLines ms <;> rfl
  | cons l ls ih =>
    rw [List.cons_append, ofLines, ofLines, ih]
    cases l.text with
    | error fault => rfl
    | ok text =>
      cases ofLines ls with
      | error fault => rfl
      | ok es => cases ofLines ms <;> simp [bind, Except.bind, Except.map, pure, Except.pure]

/-- What the bytes of a log say. -/
def entries (bs : Bytes) : Except Text.Utf8.Fault (List Entry) := ofLines (Line.ofBytes bs)

theorem entries_encode (cs : List Char) : entries (encode cs) = .ok ((Text.lines cs).filterMap Entry.parse) :=
  ofLines_texts (Line.map_bytes_ofBytes_encode cs)

/-- Behind a line break a log goes on as if it began there. -/
theorem entries_append {bs : Bytes} (h : Line.remainder bs = []) (cs : Bytes) :
    entries (bs ++ cs) = (entries bs).bind fun es => (entries cs).map (es ++ ·) := by
  have hwhole := Line.ofBytes_append bs []
  rw [List.append_nil, h, List.nil_append, Line.ofBytes_nil, List.append_nil] at hwhole
  rw [entries, entries, Line.ofBytes_append, h, hwhole, List.nil_append, ofLines_append]
  rfl

theorem encode_render (e : Entry) : encode e.render = encode e.toJson.render ++ [Line.newline] :=
  Text.Utf8.encode_append _ _

theorem remainder_render (e : Entry) : Line.remainder (encode e.render) = [] := by
  have hline := Line.ofBytes_line (Text.Utf8.newline_not_mem_encode (Entry.newline_not_mem_toJson e)) []
  rw [encode_render, Line.remainder, hline]
  rfl

theorem entries_render {e : Entry} (h : e.timestamp.isValid = true) : entries (encode e.render) = .ok [e] := by
  have hline := Line.ofBytes_line (Text.Utf8.newline_not_mem_encode (Entry.newline_not_mem_toJson e)) []
  rw [encode_render, entries, hline, ofLines_cons_text rfl, Entry.parse_toJson h]
  rfl

/-- The bytes of a log of entries. -/
def renderAll (es : List Entry) : Bytes := es.flatMap fun e => encode e.render

theorem renderAll_cons (e : Entry) (es : List Entry) :
    renderAll (e :: es) = encode e.render ++ renderAll es := rfl

theorem entries_renderAll {es : List Entry} (h : ∀ e ∈ es, e.timestamp.isValid = true) :
    entries (renderAll es) = .ok es := by
  induction es with
  | nil => rfl
  | cons e es ih =>
    have hfirst := entries_render (h e List.mem_cons_self)
    have hothers := ih fun x hx => h x (List.mem_cons_of_mem _ hx)
    rw [renderAll_cons, entries_append (remainder_render e), hfirst, hothers]
    rfl

/-! ## The file -/

theorem load_of_holds {fs : Files} {path : String} {place : Place} {bs : Bytes} {es : List Entry}
    (h : fs.Holds path place bs) (hes : entries bs = .ok es) (max : Option Nat) :
    load fs path max = .ok (keepLast max es) := by
  have hbytes : ofBytes bs max = .ok (keepLast max es) := by
    rw [ofBytes, show ofLines (Line.ofBytes bs) = .ok es from hes]
    rfl
  rw [load, h.exists, h.read]
  simp only [Bool.not_true, Bool.false_eq_true, if_false, hbytes]

theorem load_of_absent {fs : Files} {path : String} (h : fs.exists? path = false) (max : Option Nat) :
    load fs path max = .ok [] := by
  rw [load, h]
  rfl

theorem keepLast_some {α : Type} (n : Nat) (xs : List α) :
    ∃ front, xs = front ++ keepLast (some n) xs ∧ (keepLast (some n) xs).length = min n xs.length := by
  refine ⟨xs.take (xs.length - n), (List.take_append_drop _ _).symm, ?_⟩
  rw [keepLast, List.length_drop]
  omega

theorem makeDirectories_of_openAt {fs fs' : Files} {name dir : String} {log : OutputLog}
    (h : openAt fs name dir = .ok (log, fs')) : ∃ fs₁, fs.makeDirectories dir = .ok fs₁ := by
  cases hmade : fs.makeDirectories dir with
  | ok fs₁ => exact ⟨fs₁, rfl⟩
  | error e =>
    simp only [openAt, hmade] at h
    exact nomatch h

/-- An opened log is at the end of its path, with the bytes that were there before, if any. -/
theorem holds_openAt {fs fs₁ fs' : Files} {name dir : String} {log : OutputLog} {bs : Bytes}
    (hmade : fs.makeDirectories dir = .ok fs₁) (hopen : openAt fs name dir = .ok (log, fs'))
    (hfile : fs.read (pathFor name dir) = .ok bs ∨ fs₁.exists? (pathFor name dir) = false ∧ bs = []) :
    ∃ place, log = ⟨pathFor name dir, some place⟩ ∧ fs'.Holds (pathFor name dir) place bs := by
  simp only [openAt, hmade, bind, Except.bind] at hopen
  cases hw : fs₁.openForWriting (pathFor name dir) with
  | error e => simp [hw] at hopen
  | ok opened =>
    obtain ⟨place, fs₂⟩ := opened
    simp only [hw, pure, Except.pure, Except.ok.injEq, Prod.mk.injEq] at hopen
    obtain ⟨rfl, rfl⟩ := hopen
    refine ⟨place, rfl, ?_⟩
    obtain ⟨bytes, hb, rfl⟩ | ⟨habsent, hempty⟩ := Files.holds_openForWriting hw
    · rcases hfile with hread | ⟨habsent, -⟩
      · obtain ⟨place', hh⟩ := Files.holds_of_read hread
        have hread' := (hh.makeDirectories hmade).read
        rw [hb.read] at hread'
        exact Except.ok.inj hread' ▸ hb
      · rw [hb.exists] at habsent
        exact nomatch habsent
    · rcases hfile with hread | ⟨-, rfl⟩
      · obtain ⟨place', hh⟩ := Files.holds_of_read hread
        rw [(hh.makeDirectories hmade).exists] at habsent
        exact nomatch habsent
      · exact hempty

/-! ## Writers that share a log -/

/-- A line that waits for the file: the time is taken before. -/
structure Draft where
  now : Timestamp
  level : Level
  message : String

/-- What a reader is to find. -/
def Draft.entry (d : Draft) : Entry := ⟨d.now, d.level, Text.trimmed d.message⟩

inductive Turn where
  /-- a writer makes its line -/
  | draft (writer : Nat) (d : Draft)
  /-- a writer has the file and puts its line there -/
  | write (writer : Nat)
  | close

/-- A log that is shared: the files, and the line that each writer waits with. -/
structure Desk where
  log : OutputLog
  files : Files
  waiting : Nat → Option Draft

namespace Desk

def setWaiting (waiting : Nat → Option Draft) (writer : Nat) (d : Option Draft) : Nat → Option Draft :=
  fun w => if w = writer then d else waiting w

/-- One turn. A writer that waits makes no other line, and one without a line has nothing to write. -/
def turn (s : Desk) : Turn → Desk
  | .draft w d =>
    match s.waiting w with
    | none => { s with waiting := setWaiting s.waiting w (some d) }
    | some _ => s
  | .write w =>
    match s.waiting w with
    | some d =>
      { s with
        files := s.log.append s.files d.now d.level d.message
        waiting := setWaiting s.waiting w none }
    | none => s
  | .close => { s with log := s.log.close }

def run (s : Desk) : List Turn → Desk
  | [] => s
  | t :: ts => (s.turn t).run ts

/-- The lines for which the file was taken before it was closed, in that order. -/
def taken (waiting : Nat → Option Draft) : List Turn → List Draft
  | [] => []
  | .draft w d :: ts =>
    match waiting w with
    | none => taken (setWaiting waiting w (some d)) ts
    | some _ => taken waiting ts
  | .write w :: ts =>
    match waiting w with
    | some d => d :: taken (setWaiting waiting w none) ts
    | none => taken waiting ts
  | .close :: _ => []

theorem files_run_of_closed {s : Desk} (h : s.log.place = none) (ts : List Turn) :
    (s.run ts).files = s.files := by
  induction ts generalizing s with
  | nil => rfl
  | cons t ts ih =>
    have hturn : (s.turn t).log.place = none ∧ (s.turn t).files = s.files := by
      cases t with
      | draft w d =>
        rw [turn]
        cases s.waiting w <;> exact ⟨h, rfl⟩
      | write w =>
        rw [turn]
        cases s.waiting w with
        | none => exact ⟨h, rfl⟩
        | some d => exact ⟨h, by simp only [OutputLog.append, h]⟩
      | close => exact ⟨rfl, rfl⟩
    rw [run, ih hturn.1, hturn.2]

/-- What is in the file: behind what was there, the lines that were taken. -/
theorem holds_run {s : Desk} {path : String} {place : Place} {bs : Bytes} (hlog : s.log.place = some place)
    (h : s.files.Holds path place bs) (ts : List Turn) :
    (s.run ts).files.Holds path place (bs ++ renderAll ((taken s.waiting ts).map Draft.entry)) := by
  induction ts generalizing s bs with
  | nil => simpa [run, taken, renderAll] using h
  | cons t ts ih =>
    rw [run]
    cases t with
    | draft w d =>
      rw [taken, turn]
      cases hw : s.waiting w with
      | none => exact ih (s := { s with waiting := setWaiting s.waiting w (some d) }) hlog h
      | some d' => exact ih hlog h
    | write w =>
      rw [taken, turn]
      cases hw : s.waiting w with
      | none => exact ih hlog h
      | some d =>
        have hfile : (s.log.append s.files d.now d.level d.message).Holds path place
            (bs ++ encode d.entry.render) := by
          rw [append, hlog]
          exact h.change _
        have hrest := ih (s := { s with
          files := s.log.append s.files d.now d.level d.message
          waiting := setWaiting s.waiting w none }) hlog hfile
        simpa only [List.map_cons, renderAll_cons, List.append_assoc] using hrest
    | close =>
      have hclosed := files_run_of_closed (s := { s with log := s.log.close }) rfl ts
      rw [taken, turn, hclosed]
      simpa [renderAll] using h

theorem taken_subset {waiting : Nat → Option Draft} {ts : List Turn} {d : Draft}
    (h : d ∈ taken waiting ts) : (∃ w, waiting w = some d) ∨ ∃ w, .draft w d ∈ ts := by
  induction ts generalizing waiting with
  | nil => exact nomatch h
  | cons t ts ih =>
    have later (h : (∃ w, waiting w = some d) ∨ ∃ w, .draft w d ∈ ts) :
        (∃ w, waiting w = some d) ∨ ∃ w, .draft w d ∈ t :: ts :=
      h.imp_right fun ⟨w, hw⟩ => ⟨w, List.mem_cons_of_mem _ hw⟩
    cases t with
    | draft w d' =>
      rw [taken] at h
      cases hw : waiting w with
      | some _ =>
        simp only [hw] at h
        exact later (ih h)
      | none =>
        simp only [hw] at h
        rcases ih h with ⟨w', hw'⟩ | ⟨w', hw'⟩
        · unfold setWaiting at hw'
          split at hw'
          · injection hw' with hw'
            subst hw'
            exact .inr ⟨w, List.mem_cons_self⟩
          · exact .inl ⟨w', hw'⟩
        · exact later (.inr ⟨w', hw'⟩)
    | write w =>
      rw [taken] at h
      cases hw : waiting w with
      | none =>
        simp only [hw] at h
        exact later (ih h)
      | some d' =>
        simp only [hw, List.mem_cons] at h
        rcases h with rfl | h
        · exact .inl ⟨w, hw⟩
        · rcases ih h with ⟨w', hw'⟩ | ⟨w', hw'⟩
          · unfold setWaiting at hw'
            split at hw'
            · exact nomatch hw'
            · exact .inl ⟨w', hw'⟩
          · exact later (.inr ⟨w', hw'⟩)
    | close => exact nomatch h

theorem isValid_taken {ts : List Turn} (h : ∀ w d, .draft w d ∈ ts → d.now.isValid = true) :
    ∀ e ∈ (taken (fun _ => none) ts).map Draft.entry, e.timestamp.isValid = true := by
  intro e he
  obtain ⟨d, hd, rfl⟩ := List.mem_map.1 he
  rcases taken_subset hd with ⟨w, hw⟩ | ⟨w, hw⟩
  · exact nomatch hw
  · exact h w d hw

end Desk

/-- Whether a text ends with its last line. -/
def endsLine (cs : List Char) : Bool := cs.isEmpty || cs.getLast? == some '\n'

theorem remainder_of_endsLine {cs : List Char} (h : endsLine cs = true) : Line.remainder (encode cs) = [] := by
  rcases List.eq_nil_or_concat cs with rfl | ⟨cs, c, rfl⟩
  · rfl
  · have hc : c = '\n' := by simpa [endsLine] using h
    rw [hc, List.concat_eq_append, Text.Utf8.encode_append]
    exact Line.remainder_newline _

/-- A log that was opened on a file of lines, or where there was none, and then shared by any writers in
any order of turns, holds what it held and then the lines taken before it was closed. -/
theorem read_after_turns {fs fs₁ fs' : Files} {name dir : String} {log : OutputLog} {cs : List Char}
    (hmade : fs.makeDirectories dir = .ok fs₁) (hopen : openAt fs name dir = .ok (log, fs'))
    (hfile : fs.read (pathFor name dir) = .ok (encode cs) ∨
      fs₁.exists? (pathFor name dir) = false ∧ cs = [])
    (hends : endsLine cs = true) (turns : List Turn)
    (htimes : ∀ w d, .draft w d ∈ turns → d.now.isValid = true) :
    let old := (Text.lines cs).filterMap Entry.parse
    let new := (Desk.taken (fun _ => none) turns).map Draft.entry
    let files := (Desk.run ⟨log, fs', fun _ => none⟩ turns).files
    load fs (pathFor name dir) none = .ok old ∧
    load files (pathFor name dir) none = .ok (old ++ new) ∧
    ∀ n, ∃ front last, old ++ new = front ++ last ∧ last.length = min n (old ++ new).length ∧
      load files (pathFor name dir) (some n) = .ok last := by
  intro old new files
  have hbytes : fs.read (pathFor name dir) = .ok (encode cs) ∨
      fs₁.exists? (pathFor name dir) = false ∧ encode cs = [] :=
    hfile.imp_right fun h => ⟨h.1, by rw [h.2]; rfl⟩
  obtain ⟨place, hlog, hheld⟩ := holds_openAt hmade hopen hbytes
  have hold : load fs (pathFor name dir) none = .ok old := by
    rcases hfile with hread | ⟨habsent, hcs⟩
    · obtain ⟨place, hh⟩ := Files.holds_of_read hread
      exact load_of_holds hh (entries_encode cs) none
    · have hnone : old = [] := by
        simp [old, hcs, Text.lines_nil]
      rw [hnone]
      exact load_of_absent (Files.absent_of_makeDirectories hmade habsent) none
  have hvalid : ∀ e ∈ new, e.timestamp.isValid = true := Desk.isValid_taken htimes
  have hnew : entries (encode cs ++ renderAll new) = .ok (old ++ new) := by
    rw [entries_append (remainder_of_endsLine hends), entries_encode, entries_renderAll hvalid]
    rfl
  have hheld' : files.Holds (pathFor name dir) place (encode cs ++ renderAll new) :=
    Desk.holds_run (s := ⟨log, fs', fun _ => none⟩) (by rw [hlog]) hheld turns
  refine ⟨hold, load_of_holds hheld' hnew none, fun n => ?_⟩
  obtain ⟨front, hfront, hlength⟩ := keepLast_some n (old ++ new)
  exact ⟨front, _, hfront, hlength, load_of_holds hheld' hnew (some n)⟩

/-- Two writers share a log that holds a line of something else; the second gets the file first, and the
third line comes too late. -/
theorem read_after_turns_two_writers :
    let noon : Timestamp := ⟨⟨2025, 6, 20⟩, 12, 0, 0, 0⟩
    let fs : Files := ⟨[], [(["logs"], .directory 0o755),
      (["logs", "mcpgo.log"], .file (encode "no entry\n".toList) 0o644)]⟩
    let turns : List Turn := [.draft 0 ⟨noon, .stdout, " first\nsecond "⟩, .draft 1 ⟨noon, .info, "\"\\"⟩,
      .write 1, .write 0, .draft 1 ⟨noon, .error, "late"⟩, .close, .write 1]
    ∃ log fs', openAt fs "mcpgo" "logs" = .ok (log, fs') ∧
      load (Desk.run ⟨log, fs', fun _ => none⟩ turns).files "logs/mcpgo.log" none =
        .ok [⟨noon, .info, "\"\\"⟩, ⟨noon, .stdout, "first\nsecond"⟩] := by
  intro noon fs turns
  have hopen : openAt fs "mcpgo" "logs" = .ok (⟨"logs/mcpgo.log", some ["logs", "mcpgo.log"]⟩, fs) := rfl
  have htimes : ∀ w d, .draft w d ∈ turns → d.now.isValid = true := by
    intro w d hd
    have hnow : d.now = noon := by
      simp only [turns, List.mem_cons, reduceCtorEq, Turn.draft.injEq, List.not_mem_nil, false_or, or_false]
        at hd
      rcases hd with ⟨-, rfl⟩ | ⟨-, rfl⟩ | ⟨-, rfl⟩ <;> rfl
    rw [hnow]
    decide
  have hmade : fs.makeDirectories "logs" = .ok fs := rfl
  have hfile : fs.read (pathFor "mcpgo" "logs") = .ok (encode "no entry\n".toList) := rfl
  have hold : (Text.lines "no entry\n".toList).filterMap Entry.parse = [] := rfl
  have hnew : (Desk.taken (fun _ => none) turns).map Draft.entry =
      [⟨noon, .info, "\"\\"⟩, ⟨noon, .stdout, "first\nsecond"⟩] := by
    have htaken : Desk.taken (fun _ => none) turns =
        [⟨noon, .info, "\"\\"⟩, ⟨noon, .stdout, " first\nsecond "⟩] := rfl
    have htrim₁ : Text.trimmed "\"\\" = "\"\\" := by decide
    have htrim₂ : Text.trimmed " first\nsecond " = "first\nsecond" := by decide
    rw [htaken, List.map_cons, List.map_cons, List.map_nil, Draft.entry, Draft.entry, htrim₁, htrim₂]
  have hread := (read_after_turns hmade hopen (.inl hfile) (by decide) turns htimes).2.1
  rw [hold, hnew, List.nil_append] at hread
  exact ⟨_, _, hopen, hread⟩

end OutputLog

end Steward
