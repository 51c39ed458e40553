import Mathlib.Algebra.Group.Nat.Defs
import Mathlib.Data.List.TakeWhile
import Steward.Timestamp

/-!
# Timestamps are read back

What is written with as many digits as it needs is read back as the same number, and a timestamp in the
form used in files as the same moment. The hypothesis is that there is such a moment: a date of the
calendar, an hour of the day and so on.
-/

set_option autoImplicit false

namespace Steward

/-! ## Digits -/

namespace Text

theorem isDigit_iff (c : Char) : c.isDigit = true ↔ 48 ≤ c.toNat ∧ c.toNat ≤ 57 := by
  simp only [Char.isDigit, Bool.and_eq_true, decide_eq_true_eq, ge_iff_le, UInt32.le_iff_toNat_le]
  exact Iff.rfl

theorem digit?_isSome (c : Char) : (digit? c).isSome = c.isDigit := by
  simp only [digit?, Char.isDigit, Char.le_def, UInt32.le_iff_toNat_le]
  split <;> simp_all

theorem hexDigit?_of_isDigit {c : Char} (h : c.isDigit = true) :
    hexDigit? c = some (c.toNat - '0'.toNat) := by
  rw [← digit?_isSome, digit?] at h
  split at h
  · rename_i hc
    rw [hexDigit?, if_pos hc]
  · cases h

theorem digitsFrom_of_isDigit {cs : List Char} (h : ∀ c ∈ cs, c.isDigit = true) (acc : Nat) :
    digitsFrom 10 acc cs = some (Nat.ofDigitChars 10 cs acc) := by
  induction cs generalizing acc with
  | nil => rfl
  | cons c cs ih =>
    have hc := h c List.mem_cons_self
    have hlt : c.toNat - '0'.toNat < 10 := by
      have := (isDigit_iff c).1 hc
      show c.toNat - 48 < 10
      omega
    rw [digitsFrom, hexDigit?_of_isDigit hc]
    simp only [hlt, if_true]
    rw [ih (fun d hd => h d (List.mem_cons_of_mem c hd)), Nat.ofDigitChars_cons, Nat.mul_comm]

theorem decimal?_of_isDigit {cs : List Char} (hcs : cs ≠ []) (h : ∀ c ∈ cs, c.isDigit = true) :
    decimal? cs = some (Nat.ofDigitChars 10 cs 0) := by
  obtain ⟨c, cs, rfl⟩ := List.exists_cons_of_ne_nil hcs
  exact digitsFrom_of_isDigit h 0

theorem toList_padded (width n : Nat) : (padded width n).toList =
    List.replicate (width - (Nat.toDigits 10 n).length) '0' ++ Nat.toDigits 10 n := by
  rw [padded, String.toList_ofList]

theorem padded_isDigit (width n : Nat) : ∀ c ∈ (padded width n).toList, c.isDigit = true := by
  intro c hc
  rw [toList_padded, List.mem_append] at hc
  rcases hc with hc | hc
  · rw [List.eq_of_mem_replicate hc]
    rfl
  · exact Nat.isDigit_of_mem_toDigits (by decide) (by decide) hc

theorem padded_ne_nil (width n : Nat) : (padded width n).toList ≠ [] := by
  rw [toList_padded]
  simp

theorem length_padded {width n : Nat} (hw : 0 < width) (hn : n < 10 ^ width) :
    (padded width n).toList.length = width := by
  have h := (Nat.length_toDigits_le_iff (b := 10) (by decide) hw).2 hn
  rw [toList_padded, List.length_append, List.length_replicate]
  omega

theorem ofDigitChars_padded (width n : Nat) :
    Nat.ofDigitChars 10 (padded width n).toList 0 = n := by
  rw [toList_padded, Nat.ofDigitChars_append, Nat.ofDigitChars_replicate_zero, Nat.mul_zero,
    Nat.ofDigitChars_ten_toDigits]

theorem decimal?_padded (width n : Nat) : decimal? (padded width n).toList = some n := by
  rw [decimal?_of_isDigit (padded_ne_nil width n) (padded_isDigit width n), ofDigitChars_padded]

theorem isBlank_of_isDigit {c : Char} (h : c.isDigit = true) : isBlank c = false := by
  have := (isDigit_iff c).1 h
  simp only [isBlank, Bool.or_eq_false_iff, Bool.and_eq_false_iff, decide_eq_false_iff_not,
    beq_eq_false_iff_ne]
  omega

theorem trimStart_of_isDigit {ds : List Char} (hds : ds ≠ []) (h : ∀ c ∈ ds, c.isDigit = true)
    (rest : List Char) : trimStart (ds ++ rest) = ds ++ rest := by
  obtain ⟨d, ds, rfl⟩ := List.exists_cons_of_ne_nil hds
  simp [trimStart, isBlank_of_isDigit (h d List.mem_cons_self)]

theorem takeWhile_digits {ds : List Char} (h : ∀ c ∈ ds, c.isDigit = true) {c : Char}
    (hc : c.isDigit = false) (rest : List Char) :
    (ds ++ c :: rest).takeWhile (fun c => (digit? c).isSome) = ds := by
  rw [List.takeWhile_append_of_pos fun a ha => by rw [digit?_isSome, h a ha]]
  simp [digit?_isSome, hc]

end Text

namespace Timestamp

open Text

/-! ## Numbers -/

theorem number_padded {width n : Nat} (hw : 0 < width) (hn : n < 10 ^ width) (rest : List Char) :
    number width ((padded width n).toList ++ rest) = some (n, rest) := by
  have htake : ((padded width n).toList ++ rest).take width = (padded width n).toList :=
    List.take_left' (length_padded hw hn)
  have hall : (padded width n).toList.takeWhile (fun c => (digit? c).isSome) =
      (padded width n).toList := by
    rw [List.takeWhile_eq_self_iff]
    intro c hc
    rw [digit?_isSome, padded_isDigit width n c hc]
  rw [number, htake, hall, decimal?_padded]
  simp

/-- A number with any digits, up to the first character that is none. -/
theorem number_all {width n : Nat} {c : Char} (hc : c.isDigit = false) (rest : List Char) :
    number ((padded width n).toList ++ c :: rest).length ((padded width n).toList ++ c :: rest) =
      some (n, c :: rest) := by
  rw [number, List.take_length, takeWhile_digits (padded_isDigit width n) hc, decimal?_padded]
  simp

theorem pair_padded {n : Nat} (hn : n < 100) (rest : List Char) :
    pair ((padded 2 n).toList ++ rest) = some (n, rest) := by
  rw [pair, trimStart_of_isDigit (padded_ne_nil 2 n) (padded_isDigit 2 n)]
  exact number_padded (by decide) hn rest

theorem mark_cons {c : Char} (hc : isBlank c = false) (rest : List Char) :
    mark c (c :: rest) = some ((), rest) := by
  simp [mark, trimStart, hc]

theorem year_render (y : Int) {c : Char} (hc : c.isDigit = false) (rest : List Char) :
    year ((renderYear y).toList ++ c :: rest) = some (y, c :: rest) := by
  rw [renderYear]
  split
  · rename_i hy
    simp only [Bool.and_eq_true, decide_eq_true_eq] at hy
    obtain ⟨d, ds, hd⟩ := List.exists_cons_of_ne_nil (padded_ne_nil 4 y.toNat)
    have hdigit : d.isDigit = true := padded_isDigit 4 y.toNat d (by rw [hd]; exact List.mem_cons_self)
    have hread : number 4 ((padded 4 y.toNat).toList ++ c :: rest) = some (y.toNat, c :: rest) :=
      number_padded (by decide) (by omega) (c :: rest)
    rw [year, trimStart_of_isDigit (padded_ne_nil 4 y.toNat) (padded_isDigit 4 y.toNat)]
    split
    · rename_i r hr
      -- a digit is no sign
      rw [hd] at hr
      cases hr
      cases hdigit
    · rename_i r hr
      rw [hd] at hr
      cases hr
      cases hdigit
    · simp only [hread, Option.map_some]
      rw [Int.toNat_of_nonneg hy.1]
  · rename_i hy
    simp only [Bool.and_eq_true, decide_eq_true_eq] at hy
    split
    · rw [String.toList_append]
      simp only [year, trimStart, String.reduceToList, List.cons_append, List.nil_append]
      have hsign : ('-' :: ((padded 4 y.natAbs).toList ++ c :: rest)).dropWhile isBlank =
          '-' :: ((padded 4 y.natAbs).toList ++ c :: rest) := rfl
      rw [hsign]
      simp only [number_all hc, Option.map_some, Option.some.injEq, Prod.mk.injEq, and_true]
      omega
    · rw [String.toList_append]
      simp only [year, trimStart, String.reduceToList, List.cons_append, List.nil_append]
      have hsign : ('+' :: ((padded 4 y.natAbs).toList ++ c :: rest)).dropWhile isBlank =
          '+' :: ((padded 4 y.natAbs).toList ++ c :: rest) := rfl
      rw [hsign]
      simp only [number_all hc, Option.map_some, Option.some.injEq, Prod.mk.injEq, and_true]
      omega

/-- A fraction in `width` digits counts as so many billionths. -/
theorem fraction_padded {width n : Nat} (hw : 0 < width) (hw' : width ≤ 9) (hn : n < 10 ^ width)
    {c : Char} (hc : c.isDigit = false) (rest : List Char) :
    fraction ('.' :: ((padded width n).toList ++ c :: rest)) =
      some (n * 10 ^ (9 - width), c :: rest) := by
  have hlen := length_padded hw hn
  rw [fraction, takeWhile_digits (padded_isDigit width n) hc,
    List.take_of_length_le (by omega : (padded width n).toList.length ≤ 9), decimal?_padded, hlen]
  simp only [Option.map_some, List.drop_left' hlen]
  rfl

theorem fraction_render {nano : Nat} (hn : nano < 1000000000) {c : Char} (hc : c.isDigit = false)
    (hdot : c ≠ '.') (rest : List Char) :
    fraction ((renderFraction nano).toList ++ c :: rest) = some (nano, c :: rest) := by
  have dot : ∀ digits : String, ("." ++ digits).toList = '.' :: digits.toList := by
    intro digits
    rw [String.toList_append]
    rfl
  rw [renderFraction]
  split
  · rename_i h
    simp only [String.toList_empty, List.nil_append]
    rw [fraction]
    · rw [h]
    · rintro r hr
      exact hdot (List.cons.inj hr).1
  split
  · rename_i h
    rw [dot, List.cons_append, fraction_padded (by decide) (by decide) (by omega) hc]
    simp only [Option.some.injEq, Prod.mk.injEq, and_true]
    omega
  split
  · rw [dot, List.cons_append, fraction_padded (by decide) (by decide) (by omega) hc]
    simp only [Option.some.injEq, Prod.mk.injEq, and_true]
    omega
  · rw [dot, List.cons_append, fraction_padded (by decide) (by decide) (by omega) hc]
    simp

/-! ## Moments -/

/-- Whether there is such a moment. Second 60 is a leap second. -/
def isValid (t : Timestamp) : Bool :=
  t.date.isValid && t.hour < 24 && t.minute < 60 && t.second ≤ 60 && t.nano < 1000000000

theorem toUniversal_zero {t : Timestamp} (hh : t.hour < 24) (hm : t.minute < 60) :
    t.toUniversal 0 = t := by
  obtain ⟨date, hour, minute, second, nano⟩ := t
  simp only at hh hm
  simp only [toUniversal, Int.sub_zero]
  have h₁ : ¬ ((hour : Int) * 60 + minute < 0) := by omega
  have h₂ : ¬ (1440 ≤ (hour : Int) * 60 + minute) := by omega
  have h₃ : (((hour : Int) * 60 + minute) % 1440).toNat = hour * 60 + minute := by omega
  simp only [h₁, h₂, h₃, if_false, Timestamp.mk.injEq, true_and, and_true]
  omega

theorem bind_of_eq_some {α β : Type} {x : Option α} {a : α} (h : x = some a) (f : α → Option β) :
    (x >>= f) = f a := by
  rw [h]
  rfl

theorem guard_of_true {p : Prop} [Decidable p] (h : p) : (guard p : Option Unit) = some () := if_pos h

/-- What is written is read back. -/
theorem parse_render {t : Timestamp} (h : t.isValid = true) : parse t.render.toList = some t := by
  simp only [isValid, Bool.and_eq_true, decide_eq_true_eq] at h
  obtain ⟨⟨⟨⟨hdate, hhour⟩, hminute⟩, hsecond⟩, hnano⟩ := h
  have hd := hdate
  simp only [Date.isValid, Bool.and_eq_true, decide_eq_true_eq] at hd
  have hday : t.date.day ≤ 31 := by
    have : Date.daysIn t.date.year t.date.month ≤ 31 := by
      unfold Date.daysIn
      split
      · split <;> decide
      all_goals decide
    omega
  have hdash : isBlank '-' = false := by decide
  have hcolon : isBlank ':' = false := by decide
  have hdivider : isDivider 'T' = true := by decide
  have hoffset : offset (trimStart ['Z']) = some (0, []) := by decide
  have huniversal : toUniversal ⟨⟨t.date.year, t.date.month, t.date.day⟩, t.hour, t.minute, t.second,
      t.nano⟩ 0 = t := toUniversal_zero hhour hminute
  simp only [render, renderDate, renderTime, String.toList_append, List.append_assoc,
    show "-".toList = ['-'] from rfl, show ":".toList = [':'] from rfl,
    show "T".toList = ['T'] from rfl, show "Z".toList = ['Z'] from rfl, List.cons_append, List.nil_append]
  -- the text is taken apart in the order in which it is read
  refine (bind_of_eq_some (year_render t.date.year (by decide) _) _).trans ?_
  refine (bind_of_eq_some (mark_cons hdash _) _).trans ?_
  refine (bind_of_eq_some (pair_padded (by omega) _) _).trans ?_
  refine (bind_of_eq_some (mark_cons hdash _) _).trans ?_
  refine (bind_of_eq_some (pair_padded (by omega) _) _).trans ?_
  dsimp only
  rw [if_pos hdivider]
  refine (bind_of_eq_some rfl _).trans ?_
  refine (bind_of_eq_some (pair_padded (by omega) _) _).trans ?_
  refine (bind_of_eq_some (mark_cons hcolon _) _).trans ?_
  refine (bind_of_eq_some (pair_padded (by omega) _) _).trans ?_
  refine (bind_of_eq_some (mark_cons hcolon _) _).trans ?_
  refine (bind_of_eq_some (pair_padded (by omega) _) _).trans ?_
  refine (bind_of_eq_some (fraction_render hnano (by decide) (by decide) _) _).trans ?_
  refine (bind_of_eq_some hoffset _).trans ?_
  refine (bind_of_eq_some (guard_of_true (by simp [hdate, hhour, hminute, hsecond, trimStart])) _).trans ?_
  dsimp only
  rw [huniversal]
  exact bind_of_eq_some (guard_of_true hdate) _

end Timestamp

end Steward
