import Mathlib.Data.List.TakeWhile
import Steward.Text.Line
import Steward.Text.Blank

/-!
# Trimming

Blanks at the ends of a text make no difference to what trimming leaves, and a text that begins and ends
with other characters is left as it is.
-/

set_option autoImplicit false

namespace Steward.Text

theorem dropEndWhile_append {p : Char → Bool} {ds : List Char} (h : ∀ c ∈ ds, p c = true)
    (cs : List Char) : dropEndWhile p (cs ++ ds) = dropEndWhile p cs := by
  induction cs with
  | nil =>
    rw [List.nil_append]
    induction ds with
    | nil => rfl
    | cons d ds ih =>
      have hds := ih fun c hc => h c (List.mem_cons_of_mem d hc)
      simp [dropEndWhile, hds, h d List.mem_cons_self]
  | cons c cs ih => rw [List.cons_append, dropEndWhile, dropEndWhile, ih]

theorem dropEndWhile_concat {p : Char → Bool} {d : Char} (h : p d = false) (cs : List Char) :
    dropEndWhile p (cs ++ [d]) = cs ++ [d] := by
  induction cs with
  | nil => simp [dropEndWhile, h]
  | cons c cs ih =>
    rw [List.cons_append, dropEndWhile, ih]
    cases cs <;> rfl

/-- What is left is a front part of the text. -/
theorem dropEndWhile_isPrefix (p : Char → Bool) (cs : List Char) : dropEndWhile p cs <+: cs := by
  induction cs with
  | nil => exact List.prefix_rfl
  | cons c cs ih =>
    rw [dropEndWhile]
    cases hd : dropEndWhile p cs with
    | nil =>
      simp only
      split
      · exact List.nil_prefix
      · exact List.cons_prefix_cons.2 ⟨rfl, List.nil_prefix⟩
    | cons d ds =>
      rw [hd] at ih
      exact List.cons_prefix_cons.2 ⟨rfl, ih⟩

theorem trimEnd_append {ds : List Char} (h : ∀ c ∈ ds, isBlank c = true) (cs : List Char) :
    trimEnd (cs ++ ds) = trimEnd cs := dropEndWhile_append h cs

theorem trim_append {ds : List Char} (h : ∀ c ∈ ds, isBlank c = true) (cs : List Char) :
    trim (cs ++ ds) = trim cs := by
  rw [trim, trim, trimStart, trimStart, List.dropWhile_append]
  split
  · rename_i hcs
    -- blanks alone: nothing is left on either side
    have hds : ds.dropWhile isBlank = [] := List.dropWhile_eq_nil_iff.2 h
    rw [List.isEmpty_iff.1 hcs, hds]
  · exact trimEnd_append h _

/-- A text between two characters that are no blanks. -/
theorem trim_eq_self {c d : Char} (hc : isBlank c = false) (hd : isBlank d = false) (cs : List Char) :
    trim (c :: cs ++ [d]) = c :: cs ++ [d] := by
  have hstart : trimStart (c :: cs ++ [d]) = c :: cs ++ [d] := by simp [trimStart, hc]
  rw [trim, hstart]
  exact dropEndWhile_concat hd (c :: cs)

namespace Line

/-- Removing the line break removes blanks at the end and nothing else. -/
theorem chomp_append (cs : List Char) :
    ∃ ds, cs = chomp cs ++ ds ∧ ∀ c ∈ ds, isBlank c = true := by
  rw [chomp]
  split
  · rename_i rest h
    refine ⟨['\r', '\n'], ?_, List.all_eq_true.1 (by decide)⟩
    have := congrArg List.reverse h
    simpa using this
  · rename_i rest _ h
    refine ⟨['\n'], ?_, List.all_eq_true.1 (by decide)⟩
    have := congrArg List.reverse h
    simpa using this
  · exact ⟨[], by simp, by simp⟩

theorem trim_chomp (cs : List Char) : trim (chomp cs) = trim cs := by
  obtain ⟨ds, hcs, hds⟩ := chomp_append cs
  have := trim_append hds (chomp cs)
  rw [← hcs] at this
  exact this.symm

end Line

/-! ## The lines of a text -/

theorem splitAll_ne_nil (sep : Char) (cs : List Char) : splitAll sep cs ≠ [] := by
  cases cs with
  | nil => simp [splitAll]
  | cons c cs =>
    rw [splitAll]
    split
    · simp
    · split <;> simp

theorem lines_nil : lines [] = [] := by simp [lines, splitAll]

theorem lines_cons_newline (cs : List Char) : lines ('\n' :: cs) = [] :: lines cs := by
  obtain ⟨part, parts, h⟩ := List.exists_cons_of_ne_nil (splitAll_ne_nil '\n' cs)
  simp only [lines, splitAll, beq_self_eq_true, if_true, h, List.getLast?_cons_cons]
  split <;> simp

/-- Puts a character in front of the first line. -/
theorem lines_cons {c : Char} (hc : c ≠ '\n') (cs : List Char) :
    lines (c :: cs) = match lines cs with
      | [] => [[c]]
      | l :: ls => (c :: l) :: ls := by
  obtain ⟨part, parts, h⟩ := List.exists_cons_of_ne_nil (splitAll_ne_nil '\n' cs)
  simp only [lines, splitAll, beq_iff_eq, hc, if_false, h]
  cases parts with
  | nil =>
    cases part <;> simp
  | cons q qs =>
    simp only [List.getLast?_cons_cons]
    split <;> simp

end Steward.Text
