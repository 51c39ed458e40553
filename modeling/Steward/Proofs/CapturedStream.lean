import Steward.Proofs.LineCapture

/-!
# Whatever a stream holds

A capture that is fed stands where the bytes it has had put it, and has told what their complete lines tell
(`Capture.feedAll_eq`): the chunks they came in are forgotten. So a whole stream is told as its lines are, and these
are given by its bytes (`Text.Line.divides_iff`).

The lines are told each by itself, as long as they are texts in UTF-8. The first that is none is told as an error,
and nothing behind it is told (`Capture.tell_of_fault`).
-/

set_option autoImplicit false

namespace Steward

/-! ## The lines of a stream -/

namespace Text.Line

open Utf8 (Bytes)

/-- The bytes fall into these lines: each goes up to a newline, and behind the last newline there may be more. -/
inductive Divides : List Line → Bytes → Prop where
  | nil : Divides [] []
  | line {p : Bytes} (unbroken : newline ∉ p) {ls : List Line} {bs : Bytes} (rest : Divides ls bs) :
    Divides (⟨p, true⟩ :: ls) (p ++ newline :: bs)
  | last {p : Bytes} (unbroken : newline ∉ p) (held : p ≠ []) : Divides [⟨p, false⟩] p

variable {ls : List Line} {bs : Bytes}

theorem Divides.cons {b : UInt8} (hb : b ≠ newline) (h : Divides ls bs) : Divides (prepend [b] ls) (b :: bs) := by
  have front : ∀ {p : Bytes}, newline ∉ p → newline ∉ b :: p :=
    fun hp => List.not_mem_cons_of_ne_of_not_mem (Ne.symm hb) hp
  cases h with
  | nil => exact .last (front List.not_mem_nil) (List.cons_ne_nil b [])
  | line unbroken rest => exact .line (front unbroken) rest
  | last unbroken held => exact .last (front unbroken) (List.cons_ne_nil b _)

/-- Bytes fall into lines in one way. -/
theorem divides_iff : Divides ls bs ↔ ls = ofBytes bs := by
  constructor
  · intro h
    induction h with
    | nil => rfl
    | line unbroken rest ih => rw [ofBytes_line unbroken, ih]
    | last unbroken held => rw [ofBytes_open unbroken held]
  · rintro rfl
    induction bs with
    | nil => exact .nil
    | cons b bs ih =>
      by_cases hb : b = newline
      · rw [hb, ofBytes_cons_newline]
        exact .line List.not_mem_nil ih
      · rw [ofBytes_cons hb]
        exact ih.cons hb

end Text.Line

namespace Capture

open Text (Line)
open Text.Utf8 (Bytes encode)

variable {make : String → ChildEvent}

/-! ## What lines tell -/

/-- What texts tell, line by line: each without the blanks at its end, and only if something is left. -/
def spokenLines (ts : List (List Char)) : List String :=
  ((ts.map Text.trimEnd).filter (!·.isEmpty)).map String.ofList

theorem tell_of_texts {ls : List Line} {ts : List (List Char)} (h : ls.map (·.whole) = ts.map encode) :
    tell true make ls = ((spokenLines ts).map make, true) :=
  tell_of_decoded ((forall₂_of_map_eq h).imp fun _ t hl => ⟨t, Text.Utf8.decode_eq_ok_iff.2 hl, rfl⟩)

/-- The first line that is no text is told as an error, and nothing behind it. -/
theorem tell_of_fault {front behind : List Line} {l : Line} {ts : List (List Char)} {fault : Text.Utf8.Fault}
    (hfront : front.map (·.whole) = ts.map encode) (hl : Text.Utf8.decode l.whole = .error fault) :
    tell true make (front ++ l :: behind) = ((spokenLines ts).map make ++ [unreadable fault], false) := by
  rw [tell_append, tell_of_texts hfront, tell_cons_fault hl]
  rfl

/-- Lines are texts up to the first one that is none. -/
theorem texts_or_fault (ls : List Line) : (∃ ts : List (List Char), ls.map (·.whole) = ts.map encode) ∨
    ∃ (front : List Line) (l : Line) (behind : List Line) (ts : List (List Char)) (fault : Text.Utf8.Fault),
      ls = front ++ l :: behind ∧ front.map (·.whole) = ts.map encode ∧
        Text.Utf8.decode l.whole = .error fault := by
  induction ls with
  | nil => exact .inl ⟨[], rfl⟩
  | cons l ls ih =>
    cases hl : Text.Utf8.decode l.whole with
    | error fault => exact .inr ⟨[], l, ls, [], fault, rfl, rfl, hl⟩
    | ok t =>
      have hwhole := Text.Utf8.decode_eq_ok_iff.1 hl
      obtain ⟨ts, hts⟩ | ⟨front, m, behind, ts, fault, rfl, hfront, hm⟩ := ih
      · exact .inl ⟨t :: ts, by rw [List.map_cons, List.map_cons, hwhole, hts]⟩
      · exact .inr ⟨l :: front, m, behind, t :: ts, fault, rfl, by rw [List.map_cons, List.map_cons, hwhole, hfront],
          hm⟩

/-! ## Chunks in a row -/

/-- What a capture tells of chunks that come in one after another, and how it stands then. -/
def feedAll (make : String → ChildEvent) (c : Capture) : List Bytes → List ChildEvent × Capture
  | [] => ([], c)
  | chunk :: chunks =>
    let (events, c) := c.feed true make chunk
    let (more, c) := c.feedAll make chunks
    (events ++ more, c)

/-- A stream from its first chunk to its end. -/
def hear (make : String → ChildEvent) (chunks : List Bytes) : List ChildEvent × Capture :=
  let (events, c) := feedAll make {} chunks
  let (last, c) := c.close true make
  (events ++ last, c)

/-- What a capture has told that has had the bytes `bs`, and how it stands: the last line is still to come, unless
there was one that is no text. -/
def stand (make : String → ChildEvent) (bs : Bytes) : List ChildEvent × Capture :=
  let (events, goesOn) := tell true make (Line.complete bs)
  (events, { partialLine := if goesOn then Line.remainder bs else [], reading := goesOn })

/-- **A chunk leaves the capture where the bytes put it.** -/
theorem feed_stand (bs chunk : Bytes) :
    ((stand make bs).1 ++ ((stand make bs).2.feed true make chunk).1, ((stand make bs).2.feed true make chunk).2) =
      stand make (bs ++ chunk) := by
  obtain ⟨⟨told, goesOn⟩, htold⟩ : ∃ p, tell true make (Line.complete bs) = p := ⟨_, rfl⟩
  rw [stand, stand, Line.complete_append, tell_append, htold]
  cases goesOn with
  | true =>
    rw [Line.remainder_append]
    rfl
  | false =>
    -- there was a line that is no text
    exact Prod.ext (List.append_nil _) rfl

theorem feedAll_stand (bs : Bytes) (chunks : List Bytes) :
    ((stand make bs).1 ++ ((stand make bs).2.feedAll make chunks).1, ((stand make bs).2.feedAll make chunks).2) =
      stand make (bs ++ chunks.flatten) := by
  induction chunks generalizing bs with
  | nil => rw [feedAll, List.append_nil, List.flatten_nil, List.append_nil]
  | cons chunk chunks ih =>
    have hstep : _ = stand make (bs ++ chunk) := feed_stand bs chunk
    rw [List.flatten_cons, ← List.append_assoc, ← ih, ← hstep, feedAll, List.append_assoc]

/-- However a stream is cut into chunks, the capture stands where their bytes put it. -/
theorem feedAll_eq (chunks : List Bytes) : feedAll make {} chunks = stand make chunks.flatten :=
  feedAll_stand [] chunks

/-- At the end the open line is told too. -/
theorem hear_eq (chunks : List Bytes) :
    hear make chunks = ((tell true make (Line.ofBytes chunks.flatten)).1, { reading := false }) := by
  obtain ⟨⟨told, goesOn⟩, htold⟩ : ∃ p, tell true make (Line.complete chunks.flatten) = p := ⟨_, rfl⟩
  rw [hear, feedAll_eq, stand, ofBytes_eq_complete, tell_append, htold]
  cases goesOn with
  | true => rfl
  | false => exact Prod.ext (List.append_nil _) rfl

/-- What is told while a stream comes in is told at its end too, before all else. -/
theorem feedAll_prefix (opened behind : List Bytes) :
    (feedAll make {} opened).1 <+: (hear make (opened ++ behind)).1 := by
  obtain ⟨⟨told, goesOn⟩, htold⟩ : ∃ p, tell true make (Line.complete opened.flatten) = p := ⟨_, rfl⟩
  rw [feedAll_eq, hear_eq, stand, List.flatten_append, Line.ofBytes_append, tell_append, htold]
  cases goesOn with
  | true => exact List.prefix_append ..
  | false => exact List.prefix_rfl

/-- **A stream is told line by line, whatever its bytes are and however they come in.** They fall into lines in one
way. If all of them are texts in UTF-8, each that is not blank is told without the blanks at its end, by itself and in
its place; else this goes for the lines in front of the first that is none, which is told as an error, and nothing
behind it is told. Then the capture has come to its end. -/
theorem hear_lines (make : String → ChildEvent) (chunks : List Bytes) :
    (hear make chunks).2.reading = false ∧
      (∀ chunks' : List Bytes, chunks'.flatten = chunks.flatten → hear make chunks' = hear make chunks) ∧
      (∀ opened behind, chunks = opened ++ behind → (feedAll make {} opened).1 <+: (hear make chunks).1) ∧
      ∃ ls : List Line, (∀ ms, Line.Divides ms chunks.flatten ↔ ms = ls) ∧
        ((∃ ts : List (List Char), ls.map (·.whole) = ts.map encode ∧
            (hear make chunks).1 = (spokenLines ts).map make) ∨
          ∃ (front : List Line) (l : Line) (behind : List Line) (ts : List (List Char)) (fault : Text.Utf8.Fault),
            ls = front ++ l :: behind ∧ front.map (·.whole) = ts.map encode ∧ (∀ cs, l.whole ≠ encode cs) ∧
              (hear make chunks).1 = (spokenLines ts).map make ++ [unreadable fault]) := by
  refine ⟨by rw [hear_eq], fun chunks' h => by rw [hear_eq, hear_eq, h],
    fun opened behind h => h ▸ feedAll_prefix opened behind, Line.ofBytes chunks.flatten,
    fun ms => Line.divides_iff, ?_⟩
  rw [hear_eq]
  obtain ⟨ts, hts⟩ | ⟨front, l, behind, ts, fault, hls, hfront, hl⟩ := texts_or_fault (Line.ofBytes chunks.flatten)
  · exact .inl ⟨ts, hts, by rw [tell_of_texts hts]⟩
  · refine .inr ⟨front, l, behind, ts, fault, hls, hfront, fun cs hcs => ?_, by rw [hls, tell_of_fault hfront hl]⟩
    rw [hcs, Text.Utf8.decode_encode] at hl
    cases hl

/-- A character that is torn apart, a blank line, one that is no text and one behind it. -/
theorem hear_lines_torn :
    hear .stdout [[0xC3], [0xA9, 0x0A, 0x20], [0x0A, 0xFF], [0x0A, 0x61]] =
      hear .stdout [[0xC3, 0xA9, 0x0A, 0x20, 0x0A, 0xFF, 0x0A, 0x61]] :=
  (hear_lines .stdout _).2.1 _ rfl

example : (hear .stdout [[0xC3], [0xA9, 0x0A, 0x20], [0x0A, 0xFF], [0x0A, 0x61]]).1 =
    [.stdout "é", unreadable (.invalid 1 0)] := by
  decide +kernel

end Capture

end Steward
