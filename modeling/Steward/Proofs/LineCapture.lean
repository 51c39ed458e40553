import Mathlib.Data.List.Forall2
import Steward.Capture
import Steward.Proofs.Encoding

/-!
# What a captured stream tells

A stream that comes in chunks tells what all its bytes together tell. Between two chunks the capture
keeps the line that is not complete and has told the lines that are (`Capture.Tells`); at the end of the
stream it has told all of them. A stream that is a text tells its lines without the blanks at their ends,
in their order, and leaves out those that are blank.
-/

set_option autoImplicit false

namespace Steward.Capture

open Text (Line)
open Text.Utf8 (Bytes encode)

variable {make : String → ChildEvent}

/-! ## Lines in a row -/

theorem tell_cons_fault {l : Line} {fault : Text.Utf8.Fault} (h : Text.Utf8.decode l.whole = .error fault)
    (ls : List Line) : tell true make (l :: ls) = ([unreadable fault], false) := by
  simp [tell, h]

theorem tell_cons_blank {l : Line} {cs : List Char} (h : Text.Utf8.decode l.whole = .ok cs)
    (hcs : Text.trimEnd cs = []) (ls : List Line) : tell true make (l :: ls) = tell true make ls := by
  simp [tell, h, hcs]

theorem tell_cons_text {l : Line} {cs : List Char} (h : Text.Utf8.decode l.whole = .ok cs)
    (hcs : Text.trimEnd cs ≠ []) (ls : List Line) :
    tell true make (l :: ls) =
      (make (String.ofList (Text.trimEnd cs)) :: (tell true make ls).1, (tell true make ls).2) := by
  obtain ⟨c, text, ht⟩ := List.exists_cons_of_ne_nil hcs
  simp [tell, h, ht]

theorem tell_append (ls ms : List Line) :
    tell true make (ls ++ ms) =
      if (tell true make ls).2 then
        ((tell true make ls).1 ++ (tell true make ms).1, (tell true make ms).2)
      else tell true make ls := by
  induction ls with
  | nil => rfl
  | cons l ls ih =>
    rw [List.cons_append]
    cases hl : Text.Utf8.decode l.whole with
    | error fault =>
      rw [tell_cons_fault hl, tell_cons_fault hl]
      rfl
    | ok cs =>
      by_cases hcs : Text.trimEnd cs = []
      · rw [tell_cons_blank hl hcs, tell_cons_blank hl hcs, ih]
      · rw [tell_cons_text hl hcs, tell_cons_text hl hcs, ih]
        cases hok : (tell true make ls).2 with
        | true => rfl
        | false => simp [hok]

/-- The lines that are worth telling: without the blanks at their ends, and only if something is left. -/
def spoken (cs : List Char) : List String :=
  (((Text.lines cs).map Text.trimEnd).filter (!·.isEmpty)).map String.ofList

/-- Lines that are texts, but for blanks at their ends, tell what the texts tell. -/
theorem tell_of_decoded {ls : List Line} {ts : List (List Char)}
    (h : List.Forall₂ (fun l t => ∃ cs, Text.Utf8.decode l.whole = .ok cs ∧
      Text.trimEnd cs = Text.trimEnd t) ls ts) :
    tell true make ls = ((((ts.map Text.trimEnd).filter (!·.isEmpty)).map String.ofList).map make, true) := by
  induction h with
  | nil => rfl
  | @cons l t ls ts hl _ ih =>
    obtain ⟨cs, hdecode, htrim⟩ := hl
    by_cases ht : Text.trimEnd t = []
    · rw [tell_cons_blank hdecode (htrim.trans ht), ih, List.map_cons, ht]
      rfl
    · rw [tell_cons_text hdecode (htrim ▸ ht), ih, htrim, List.map_cons,
        List.filter_cons_of_pos (by simpa using ht)]
      rfl

theorem forall₂_of_map_eq {read : Line → Bytes} {ls : List Line} {ts : List (List Char)}
    (h : ls.map read = ts.map encode) : List.Forall₂ (fun l t => read l = encode t) ls ts := by
  have heq : List.Forall₂ (· = ·) (ls.map read) (ts.map encode) := by
    rw [List.forall₂_eq_eq_eq]
    exact h
  exact List.forall₂_map_right_iff.1 (List.forall₂_map_left_iff.1 heq)

theorem tell_texts {ls : List Line} {ts : List (List Char)} (h : ls.map (·.bytes) = ts.map encode) :
    tell true make ls = ((((ts.map Text.trimEnd).filter (!·.isEmpty)).map String.ofList).map make, true) := by
  refine tell_of_decoded ((forall₂_of_map_eq h).imp fun l t hl => ?_)
  obtain ⟨ds, hdecode, hblank⟩ := Line.decode_whole hl
  exact ⟨t ++ ds, hdecode, Text.trimEnd_append hblank t⟩

/-- What a text tells. -/
theorem tell_encode (cs : List Char) :
    (tell true make (Line.ofBytes (encode cs))).1 = (spoken cs).map make := by
  rw [tell_texts (Line.map_bytes_ofBytes_encode cs)]
  rfl

/-! ## Chunks -/

/-- A capture that has had the bytes `bs` and has told `told`. While it reads, the last line is still to
come; afterwards all is told that there was to tell. -/
def Tells (make : String → ChildEvent) (bs : Bytes) (told : List ChildEvent) (c : Capture) : Prop :=
  c.reading = true ∧ c.partialLine = Line.remainder bs ∧ tell true make (Line.complete bs) = (told, true) ∨
  c.reading = false ∧ told = (tell true make (Line.ofBytes bs)).1

theorem Tells.start : Tells make [] [] {} := .inl ⟨rfl, rfl, rfl⟩

theorem ofBytes_eq_complete (bs : Bytes) :
    Line.ofBytes bs = Line.complete bs ++ Line.ofBytes (Line.remainder bs) := by
  have h := Line.ofBytes_append bs []
  rwa [List.append_nil, List.append_nil] at h

/-- A chunk comes in; how the stream is cut into chunks makes no difference. -/
theorem Tells.feed {bs : Bytes} {told : List ChildEvent} {c : Capture} (h : c.Tells make bs told)
    (hr : c.reading = true) (chunk : Bytes) :
    (c.feed true make chunk).2.Tells make (bs ++ chunk) (told ++ (c.feed true make chunk).1) := by
  obtain ⟨-, hpartial, htold⟩ | ⟨hended, -⟩ := h
  · have hall : tell true make (Line.complete (bs ++ chunk)) =
        (told ++ (tell true make (Line.complete (Line.remainder bs ++ chunk))).1,
          (tell true make (Line.complete (Line.remainder bs ++ chunk))).2) := by
      rw [Line.complete_append, tell_append, htold]
      rfl
    have hfeed : c.feed true make chunk =
        ((tell true make (Line.complete (Line.remainder bs ++ chunk))).1, {
          partialLine := if (tell true make (Line.complete (Line.remainder bs ++ chunk))).2 then
            Line.remainder (Line.remainder bs ++ chunk) else []
          reading := (tell true make (Line.complete (Line.remainder bs ++ chunk))).2 }) := by
      rw [Capture.feed, hr, hpartial]
      rfl
    rw [hfeed]
    cases hok : (tell true make (Line.complete (Line.remainder bs ++ chunk))).2 with
    | true =>
      refine .inl ⟨rfl, ?_, ?_⟩
      · rw [if_pos rfl, ← Line.remainder_append]
      · rw [hall, hok]
    | false =>
      -- a line was no text, and nothing is told behind it
      refine .inr ⟨rfl, ?_⟩
      rw [ofBytes_eq_complete, tell_append, hall, hok]
      rfl
  · rw [hr] at hended
    exact nomatch hended

/-- The stream ends. -/
theorem Tells.close {bs : Bytes} {told : List ChildEvent} {c : Capture} (h : c.Tells make bs told)
    (hr : c.reading = true) :
    (c.close true make).2.Tells make bs (told ++ (c.close true make).1) ∧
      (c.close true make).2.reading = false := by
  obtain ⟨-, hpartial, htold⟩ | ⟨hended, -⟩ := h
  · have hclose : c.close true make =
        ((tell true make (Line.ofBytes (Line.remainder bs))).1, { partialLine := [], reading := false }) := by
      rw [Capture.close, hr, hpartial]
      rfl
    rw [hclose]
    refine ⟨.inr ⟨rfl, ?_⟩, rfl⟩
    rw [ofBytes_eq_complete bs, tell_append, htold]
    rfl
  · rw [hr] at hended
    exact nomatch hended

theorem Tells.eq_of_ended {bs : Bytes} {told : List ChildEvent} {c : Capture} (h : c.Tells make bs told)
    (hr : c.reading = false) : told = (tell true make (Line.ofBytes bs)).1 := by
  obtain ⟨hreads, -⟩ | ⟨-, htold⟩ := h
  · rw [hr] at hreads
    exact nomatch hreads
  · exact htold

end Steward.Capture
