import Mathlib.Tactic.SplitIfs
import Steward.Proofs.Trimming

/-!
# UTF-8 and lines

Writing a text as UTF-8 and decoding it gives the text back, and a text that is cut inside a character
is refused as incomplete. No character but the newline has the newline byte among its bytes, so that the
lines of the bytes are the lines of the text (`Line.map_bytes_ofBytes_encode`).

Bytes that are read piece by piece fall into the same lines as all of them together: what is complete
can be dealt with, what is not complete waits for the next piece (`Line.ofBytes_append`).
-/

set_option autoImplicit false

namespace Steward.Text

theorem toNat_ofNat {n : Nat} (h : n.isValidChar) : (Char.ofNat n).toNat = n := by
  rw [Char.ofNat, dif_pos h]
  rfl

namespace Utf8

/-! ## One character -/

theorem toNat_byte {n : Nat} (h : n < 256) : n.toUInt8.toNat = n := by
  simp [Nat.toUInt8, Nat.mod_eq_of_lt h]

theorem lead_two {b : UInt8} (h : 0xC2 ≤ b.toNat) (h' : b.toNat ≤ 0xDF) :
    lead b = some (1, 0x80, 0xBF) := by
  simp [lead, UInt8.le_iff_toNat_le, h, h']

/-- The second byte is in the range that the first one leaves open: no overlong form, no surrogate. -/
theorem lead_three {n : Nat} {b b₁ : UInt8} (hb : b.toNat = 0xE0 + n / 4096)
    (h₁ : b₁.toNat = 0x80 + n / 64 % 64) (hlow : 0x800 ≤ n) (hhigh : n < 0x10000)
    (hs : n < 0xD800 ∨ 0xDFFF < n) :
    ∃ lo hi, lead b = some (2, lo, hi) ∧ lo ≤ b₁ ∧ b₁ ≤ hi := by
  simp only [lead, UInt8.le_iff_toNat_le, beq_iff_eq, ← UInt8.toNat_inj, hb, UInt8.reduceToNat,
    Bool.and_eq_true, Bool.or_eq_true, decide_eq_true_eq]
  rw [if_neg (by omega)]
  split
  · refine ⟨0xA0, 0xBF, rfl, ?_, ?_⟩ <;> simp only [UInt8.reduceToNat] <;> omega
  split
  · refine ⟨0x80, 0xBF, rfl, ?_, ?_⟩ <;> simp only [UInt8.reduceToNat] <;> omega
  split
  · refine ⟨0x80, 0x9F, rfl, ?_, ?_⟩ <;> simp only [UInt8.reduceToNat] <;> omega
  rw [if_pos (by omega)]
  refine ⟨0x80, 0xBF, rfl, ?_, ?_⟩ <;> simp only [UInt8.reduceToNat] <;> omega

theorem lead_four {n : Nat} {b b₁ : UInt8} (hb : b.toNat = 0xF0 + n / 262144)
    (h₁ : b₁.toNat = 0x80 + n / 4096 % 64) (hlow : 0x10000 ≤ n) (hhigh : n < 0x110000) :
    ∃ lo hi, lead b = some (3, lo, hi) ∧ lo ≤ b₁ ∧ b₁ ≤ hi := by
  simp only [lead, UInt8.le_iff_toNat_le, beq_iff_eq, ← UInt8.toNat_inj, hb, UInt8.reduceToNat,
    Bool.and_eq_true, Bool.or_eq_true, decide_eq_true_eq]
  rw [if_neg (by omega), if_neg (by omega), if_neg (by omega), if_neg (by omega), if_neg (by omega)]
  split
  · refine ⟨0x90, 0xBF, rfl, ?_, ?_⟩ <;> simp only [UInt8.reduceToNat] <;> omega
  split
  · refine ⟨0x80, 0xBF, rfl, ?_, ?_⟩ <;> simp only [UInt8.reduceToNat] <;> omega
  rw [if_pos (by omega)]
  refine ⟨0x80, 0x8F, rfl, ?_, ?_⟩ <;> simp only [UInt8.reduceToNat] <;> omega

/-- A byte that has to be followed by others is no character by itself. -/
theorem front_nil {b lo hi : UInt8} {n : Nat} (hge : ¬ b < 0x80) (hlead : lead b = some (n, lo, hi)) :
    front b [] = .cut := by
  simp [front, hge, hlead]

theorem front_pair {b b₁ lo hi : UInt8} {n : Nat} (hge : ¬ b < 0x80)
    (hlead : lead b = some (n, lo, hi)) (hn : n ≠ 1) (h₁ : lo ≤ b₁ ∧ b₁ ≤ hi) :
    front b [b₁] = .cut := by
  simp [front, hge, hlead, hn, h₁]

theorem front_triple {b b₁ b₂ lo hi : UInt8} {n : Nat} (hge : ¬ b < 0x80)
    (hlead : lead b = some (n, lo, hi)) (hn : n ≠ 1) (hn' : n ≠ 2) (h₁ : lo ≤ b₁ ∧ b₁ ≤ hi)
    (h₂ : isContinuation b₂ = true) : front b [b₁, b₂] = .cut := by
  simp [front, hge, hlead, hn, hn', h₁, h₂]

theorem isContinuation_byte {n : Nat} : isContinuation (0x80 + n % 64).toUInt8 = true := by
  have h : (0x80 + n % 64).toUInt8.toNat = 0x80 + n % 64 := toNat_byte (by omega)
  simp only [isContinuation, UInt8.le_iff_toNat_le, UInt8.reduceToNat, h, Bool.and_eq_true,
    decide_eq_true_eq]
  omega

/-- The first byte and the others are read as the character, and anything less as a character that is
cut. -/
theorem front_encodeChar (c : Char) : ∃ b t, encodeChar c = b :: t ∧
    (∀ rest, front b (t ++ rest) = .char c (t.length + 1)) ∧
    ∀ p q, t = p ++ q → q ≠ [] → front b p = .cut := by
  obtain ⟨n, hn⟩ : ∃ n, c.toNat = n := ⟨_, rfl⟩
  have hc : Char.ofNat n = c := by rw [← hn, Char.ofNat_toNat]
  have hvalid : n < 0xD800 ∨ 0xDFFF < n ∧ n < 0x110000 := hn ▸ c.valid
  simp only [encodeChar, hn]
  split
  · rename_i h
    have hb : n.toUInt8.toNat = n := toNat_byte (by omega)
    have hlt : n.toUInt8 < 0x80 := by rw [UInt8.lt_iff_toNat_lt, hb]; exact h
    refine ⟨_, _, rfl, fun rest => ?_, fun p q hpq hq => ?_⟩
    · simp [front, hlt, hb, hc]
    · exact absurd (List.append_eq_nil_iff.1 hpq.symm).2 hq
  split
  · have hb : (0xC0 + n / 64).toUInt8.toNat = 0xC0 + n / 64 := toNat_byte (by omega)
    have h₁ : (0x80 + n % 64).toUInt8.toNat = 0x80 + n % 64 := toNat_byte (by omega)
    have hlead := lead_two (b := (0xC0 + n / 64).toUInt8) (by omega) (by omega)
    have hr₁ := isContinuation_byte (n := n)
    generalize (0xC0 + n / 64).toUInt8 = b at *
    generalize (0x80 + n % 64).toUInt8 = b₁ at *
    have hge : ¬ b < 0x80 := by simp only [UInt8.lt_iff_toNat_lt, UInt8.reduceToNat]; omega
    have hvalue : (b.toNat - 0xC0) * 64 + (b₁.toNat - 0x80) = n := by omega
    simp only [isContinuation, Bool.and_eq_true, decide_eq_true_eq] at hr₁
    refine ⟨_, _, rfl, fun rest => ?_, fun p q hpq hq => ?_⟩
    · simp [front, hge, hlead, hr₁, hvalue, hc]
    · rcases p with _ | ⟨x, p⟩
      · exact front_nil hge hlead
      · simp_all
  split
  · have hb : (0xE0 + n / 4096).toUInt8.toNat = 0xE0 + n / 4096 := toNat_byte (by omega)
    have h₁ : (0x80 + n / 64 % 64).toUInt8.toNat = 0x80 + n / 64 % 64 := toNat_byte (by omega)
    have h₂ : (0x80 + n % 64).toUInt8.toNat = 0x80 + n % 64 := toNat_byte (by omega)
    obtain ⟨lo, hi, hlead, hr₁⟩ := lead_three hb h₁ (by omega) (by omega) (by omega)
    have hr₂ := isContinuation_byte (n := n)
    generalize (0xE0 + n / 4096).toUInt8 = b at *
    generalize (0x80 + n / 64 % 64).toUInt8 = b₁ at *
    generalize (0x80 + n % 64).toUInt8 = b₂ at *
    have hge : ¬ b < 0x80 := by simp only [UInt8.lt_iff_toNat_lt, UInt8.reduceToNat]; omega
    have hvalue : (b.toNat - 0xE0) * 4096 + (b₁.toNat - 0x80) * 64 + (b₂.toNat - 0x80) = n := by
      omega
    refine ⟨_, _, rfl, fun rest => ?_, fun p q hpq hq => ?_⟩
    · simp [front, hge, hlead, hr₁, hr₂, hvalue, hc]
    · rcases p with _ | ⟨x, _ | ⟨y, p⟩⟩
      · exact front_nil hge hlead
      · obtain ⟨rfl, -⟩ := List.cons.inj hpq
        exact front_pair hge hlead (by decide) hr₁
      · simp_all
  · have hb : (0xF0 + n / 262144).toUInt8.toNat = 0xF0 + n / 262144 := toNat_byte (by omega)
    have h₁ : (0x80 + n / 4096 % 64).toUInt8.toNat = 0x80 + n / 4096 % 64 := toNat_byte (by omega)
    have h₂ : (0x80 + n / 64 % 64).toUInt8.toNat = 0x80 + n / 64 % 64 := toNat_byte (by omega)
    have h₃ : (0x80 + n % 64).toUInt8.toNat = 0x80 + n % 64 := toNat_byte (by omega)
    obtain ⟨lo, hi, hlead, hr₁⟩ := lead_four hb h₁ (by omega) (by omega)
    have hr₂ := isContinuation_byte (n := n / 64)
    have hr₃ := isContinuation_byte (n := n)
    generalize (0xF0 + n / 262144).toUInt8 = b at *
    generalize (0x80 + n / 4096 % 64).toUInt8 = b₁ at *
    generalize (0x80 + n / 64 % 64).toUInt8 = b₂ at *
    generalize (0x80 + n % 64).toUInt8 = b₃ at *
    have hge : ¬ b < 0x80 := by simp only [UInt8.lt_iff_toNat_lt, UInt8.reduceToNat]; omega
    have hvalue : (b.toNat - 0xF0) * 262144 + (b₁.toNat - 0x80) * 4096 + (b₂.toNat - 0x80) * 64 +
        (b₃.toNat - 0x80) = n := by
      omega
    refine ⟨_, _, rfl, fun rest => ?_, fun p q hpq hq => ?_⟩
    · simp [front, hge, hlead, hr₁, hr₂, hr₃, hvalue, hc]
    · rcases p with _ | ⟨x, _ | ⟨y, _ | ⟨z, p⟩⟩⟩
      · exact front_nil hge hlead
      · obtain ⟨rfl, -⟩ := List.cons.inj hpq
        exact front_pair hge hlead (by decide) hr₁
      · obtain ⟨rfl, hrest⟩ := List.cons.inj hpq
        obtain ⟨rfl, -⟩ := List.cons.inj hrest
        exact front_triple hge hlead (by decide) (by decide) hr₁ hr₂
      · simp_all

theorem lead_range {b lo hi : UInt8} {n : Nat} (h : lead b = some (n, lo, hi)) : 0x80 ≤ lo := by
  unfold lead at h
  split_ifs at h
  all_goals simp only [Option.some.injEq, Prod.mk.injEq] at h
  all_goals obtain ⟨-, rfl, -⟩ := h
  all_goals decide

/-- A character that is cut short cannot go on with a character of one byte. -/
theorem front_cut_append {b x : UInt8} {p : Bytes} (h : front b p = .cut) (hx : x < 0x80) (rest : Bytes) :
    ∃ n, front b (p ++ x :: rest) = .fault n := by
  have hcont : isContinuation x = false := by
    simp only [isContinuation, Bool.and_eq_false_iff, decide_eq_false_iff_not, UInt8.not_le]
    exact .inl hx
  unfold front at h ⊢
  split at h
  · exact nomatch h
  rename_i hb
  rw [if_neg hb]
  split at h
  · exact nomatch h
  rename_i n lo hi hlead
  have hout : (!(decide (lo ≤ x) && decide (x ≤ hi))) = true := by
    have hlo := UInt8.lt_of_lt_of_le hx (lead_range hlead)
    simp [UInt8.not_le.2 hlo]
  rcases p with _ | ⟨b₁, _ | ⟨b₂, _ | ⟨b₃, p⟩⟩⟩
  · exact ⟨1, by simp [hout]⟩
  · simp only [List.cons_append, List.nil_append] at h ⊢
    split_ifs at h with h₁ h₂
    exact ⟨2, by simp only [h₁, h₂, hcont]; rfl⟩
  · simp only [List.cons_append, List.nil_append] at h ⊢
    split_ifs at h with h₁ h₂ h₃ h₄
    exact ⟨3, by simp only [h₁, h₂, h₃, h₄, hcont]; rfl⟩
  · simp only at h
    split_ifs at h

/-! ## What is read as a character -/

/-- What the first byte of a character says about the second one and about the number of those behind. -/
theorem lead_cases {b lo hi : UInt8} {n : Nat} (h : lead b = some (n, lo, hi)) :
    n = 1 ∧ 0xC2 ≤ b.toNat ∧ b.toNat ≤ 0xDF ∧ lo = 0x80 ∧ hi = 0xBF ∨
    n = 2 ∧ (b.toNat = 0xE0 ∧ lo = 0xA0 ∧ hi = 0xBF ∨
      0xE1 ≤ b.toNat ∧ b.toNat ≤ 0xEF ∧ b.toNat ≠ 0xED ∧ lo = 0x80 ∧ hi = 0xBF ∨
      b.toNat = 0xED ∧ lo = 0x80 ∧ hi = 0x9F) ∨
    n = 3 ∧ (b.toNat = 0xF0 ∧ lo = 0x90 ∧ hi = 0xBF ∨ 0xF1 ≤ b.toNat ∧ b.toNat ≤ 0xF3 ∧ lo = 0x80 ∧ hi = 0xBF ∨
      b.toNat = 0xF4 ∧ lo = 0x80 ∧ hi = 0x8F) := by
  unfold lead at h
  simp only [UInt8.le_iff_toNat_le, beq_iff_eq, ← UInt8.toNat_inj, UInt8.reduceToNat,
    Bool.and_eq_true, Bool.or_eq_true, decide_eq_true_eq] at h
  split_ifs at h
  all_goals simp only [Option.some.injEq, Prod.mk.injEq] at h
  all_goals obtain ⟨rfl, rfl, rfl⟩ := h
  all_goals simp
  all_goals omega

theorem toUInt8_eq {n : Nat} {b : UInt8} (h : n = b.toNat) : n.toUInt8 = b :=
  h ▸ UInt8.ofNat_toNat

/-- The bytes of a character from its number. -/
theorem encodeChar_ofNat {n : Nat} (h : n.isValidChar) :
    encodeChar (Char.ofNat n) =
      if n < 0x80 then [n.toUInt8]
      else if n < 0x800 then [(0xC0 + n / 64).toUInt8, (0x80 + n % 64).toUInt8]
      else if n < 0x10000 then
        [(0xE0 + n / 4096).toUInt8, (0x80 + n / 64 % 64).toUInt8, (0x80 + n % 64).toUInt8]
      else
        [(0xF0 + n / 262144).toUInt8, (0x80 + n / 4096 % 64).toUInt8, (0x80 + n / 64 % 64).toUInt8,
          (0x80 + n % 64).toUInt8] := by
  simp only [encodeChar, toNat_ofNat h]

/-- A character that is read stands there as it would be written. -/
theorem encodeChar_of_front {b : UInt8} {rest : Bytes} {c : Char} {size : Nat} (h : front b rest = .char c size) :
    encodeChar c ++ rest.drop (size - 1) = b :: rest := by
  unfold front at h
  split at h
  · rename_i hb
    simp only [UInt8.lt_iff_toNat_lt, UInt8.reduceToNat] at hb
    cases h
    rw [encodeChar_ofNat (.inl (by omega)), if_pos hb, toUInt8_eq rfl]
    rfl
  split at h
  · cases h
  rename_i k lo hi hlead
  have hrange := lead_cases hlead
  rcases rest with _ | ⟨b₁, rest⟩
  · cases h
  simp only [isContinuation, Bool.not_eq_true', Bool.and_eq_false_iff, decide_eq_false_iff_not, beq_iff_eq,
    UInt8.le_iff_toNat_le, UInt8.reduceToNat] at h
  split_ifs at h with h₁ hone htwo
  · obtain ⟨-, hlow, hhigh, rfl, rfl⟩ := hrange.resolve_right (by omega)
    simp only [UInt8.reduceToNat] at h₁
    obtain ⟨rfl, rfl⟩ := Front.char.inj h
    rw [encodeChar_ofNat (.inl (by omega)), if_neg (by omega), if_pos (by omega), toUInt8_eq (b := b) (by omega),
      toUInt8_eq (b := b₁) (by omega)]
    rfl
  · obtain ⟨-, hsecond⟩ := (hrange.resolve_left (by omega)).resolve_right (by omega)
    have hbound : 0x80 ≤ b₁.toNat ∧ b₁.toNat ≤ 0xBF ∧ 0xE0 ≤ b.toNat ∧ b.toNat ≤ 0xEF ∧
        (b.toNat = 0xE0 → 0xA0 ≤ b₁.toNat) ∧ (b.toNat = 0xED → b₁.toNat ≤ 0x9F) := by
      rcases hsecond with ⟨hb, rfl, rfl⟩ | ⟨hlow, hhigh, hne, rfl, rfl⟩ | ⟨hb, rfl, rfl⟩ <;>
        simp only [UInt8.reduceToNat] at h₁ <;> omega
    rcases rest with _ | ⟨b₂, rest⟩
    · cases h
    simp only at h
    split_ifs at h with h₂
    obtain ⟨rfl, rfl⟩ := Front.char.inj h
    rw [encodeChar_ofNat (by unfold Nat.isValidChar; omega), if_neg (by omega), if_neg (by omega),
      if_pos (by omega), toUInt8_eq (b := b) (by omega), toUInt8_eq (b := b₁) (by omega),
      toUInt8_eq (b := b₂) (by omega)]
    rfl
  · obtain ⟨-, hsecond⟩ := (hrange.resolve_left (by omega)).resolve_left (by omega)
    have hbound : 0x80 ≤ b₁.toNat ∧ b₁.toNat ≤ 0xBF ∧ 0xF0 ≤ b.toNat ∧ b.toNat ≤ 0xF4 ∧
        (b.toNat = 0xF0 → 0x90 ≤ b₁.toNat) ∧ (b.toNat = 0xF4 → b₁.toNat ≤ 0x8F) := by
      rcases hsecond with ⟨hb, rfl, rfl⟩ | ⟨hlow, hhigh, rfl, rfl⟩ | ⟨hb, rfl, rfl⟩ <;>
        simp only [UInt8.reduceToNat] at h₁ <;> omega
    rcases rest with _ | ⟨b₂, _ | ⟨b₃, rest⟩⟩
    · cases h
    · simp only at h
      split_ifs at h
    simp only at h
    split_ifs at h with h₂ h₃
    obtain ⟨rfl, rfl⟩ := Front.char.inj h
    rw [encodeChar_ofNat (by unfold Nat.isValidChar; omega), if_neg (by omega), if_neg (by omega),
      if_neg (by omega), toUInt8_eq (b := b) (by omega), toUInt8_eq (b := b₁) (by omega),
      toUInt8_eq (b := b₂) (by omega), toUInt8_eq (b := b₃) (by omega)]
    rfl

/-! ## Texts -/

theorem encode_nil : encode [] = [] := rfl

theorem encode_cons (c : Char) (cs : List Char) : encode (c :: cs) = encodeChar c ++ encode cs := rfl

theorem encode_append (cs ds : List Char) : encode (cs ++ ds) = encode cs ++ encode ds := by
  simp [encode]

theorem encodeChar_ne_nil (c : Char) : encodeChar c ≠ [] := by
  obtain ⟨b, t, h, -⟩ := front_encodeChar c
  simp [h]

/-- Bytes that belong to a character already read are passed over. -/
theorem decodeFrom_skip (index : Nat) (t rest : Bytes) :
    decodeFrom index t.length (t ++ rest) = decodeFrom (index + t.length) 0 rest := by
  induction t generalizing index with
  | nil => rfl
  | cons b t ih =>
    rw [List.length_cons, List.cons_append, decodeFrom, ih]
    congr 1
    omega

theorem decodeFrom_encodeChar (index : Nat) (c : Char) (rest : Bytes) :
    decodeFrom index 0 (encodeChar c ++ rest) =
      (decodeFrom (index + (encodeChar c).length) 0 rest).map (c :: ·) := by
  obtain ⟨b, t, h, hfront, -⟩ := front_encodeChar c
  rw [h, List.cons_append, decodeFrom, hfront]
  simp only [Nat.add_sub_cancel, decodeFrom_skip, List.length_cons]
  rw [show index + (t.length + 1) = index + 1 + t.length by omega]
  cases decodeFrom (index + 1 + t.length) 0 rest <;> rfl

theorem decodeFrom_encode_append (index : Nat) (cs : List Char) (rest : Bytes) :
    decodeFrom index 0 (encode cs ++ rest) =
      (decodeFrom (index + (encode cs).length) 0 rest).map (cs ++ ·) := by
  induction cs generalizing index with
  | nil =>
    simp only [encode_nil, List.nil_append, List.length_nil, Nat.add_zero]
    cases decodeFrom index 0 rest <;> rfl
  | cons c cs ih =>
    rw [encode_cons, List.append_assoc, decodeFrom_encodeChar, ih, List.length_append,
      Nat.add_assoc]
    cases decodeFrom (index + ((encodeChar c).length + (encode cs).length)) 0 rest <;> rfl

/-- What was written is read back. -/
@[simp] theorem decode_encode (cs : List Char) : decode (encode cs) = .ok cs := by
  have h := decodeFrom_encode_append 0 cs []
  rw [List.append_nil] at h
  rw [decode, h, decodeFrom]
  simp [Except.map]

theorem decodeFrom_eq_ok {bs : Bytes} {index skip : Nat} {cs : List Char} (h : decodeFrom index skip bs = .ok cs) :
    bs.drop skip = encode cs := by
  induction bs generalizing index skip cs with
  | nil =>
    cases h
    rw [List.drop_nil, encode_nil]
  | cons b rest ih =>
    cases skip with
    | succ skip => exact ih h
    | zero =>
      rw [decodeFrom] at h
      split at h
      · rename_i c size hfront
        split at h
        · rename_i cs hrest
          cases h
          rw [List.drop_zero, encode_cons, ← ih hrest, encodeChar_of_front hfront]
        · cases h
      · cases h
      · cases h

/-- **What can be decoded is what was written.** -/
theorem decode_eq_ok_iff {bs : Bytes} {cs : List Char} : decode bs = .ok cs ↔ bs = encode cs :=
  ⟨fun h => decodeFrom_eq_ok h, fun h => h ▸ decode_encode cs⟩

/-- Bytes that end inside a character are incomplete. -/
theorem decode_cut {cs : List Char} {c : Char} {p q : Bytes} (h : encodeChar c = p ++ q)
    (hp : p ≠ []) (hq : q ≠ []) :
    decode (encode cs ++ p) = .error (.incomplete (encode cs).length) := by
  obtain ⟨b, t, hc, -, hcut⟩ := front_encodeChar c
  obtain ⟨b', p, rfl⟩ := List.exists_cons_of_ne_nil hp
  rw [hc, List.cons_append] at h
  obtain ⟨rfl, ht⟩ := List.cons.inj h
  rw [decode, decodeFrom_encode_append, decodeFrom, hcut p q ht hq, Nat.zero_add]
  rfl

/-- And no text goes on behind them with a character of one byte. -/
theorem decode_cut_append {cs : List Char} {c : Char} {p q : Bytes} (h : encodeChar c = p ++ q)
    (hp : p ≠ []) (hq : q ≠ []) {x : UInt8} (hx : x < 0x80) (rest : Bytes) :
    ∃ fault, decode (encode cs ++ (p ++ x :: rest)) = .error fault := by
  obtain ⟨b, t, hc, -, hcut⟩ := front_encodeChar c
  obtain ⟨b', p, rfl⟩ := List.exists_cons_of_ne_nil hp
  rw [hc, List.cons_append] at h
  obtain ⟨rfl, ht⟩ := List.cons.inj h
  obtain ⟨n, hfault⟩ := front_cut_append (hcut p q ht hq) hx rest
  refine ⟨.invalid n (0 + (encode cs).length), ?_⟩
  rw [decode, decodeFrom_encode_append, List.cons_append, decodeFrom, hfault]
  rfl

/-- Bytes at the front of a text end between two characters or inside one. -/
theorem encode_eq_append {cs : List Char} {p q : Bytes} (h : encode cs = p ++ q) :
    (∃ ds es, cs = ds ++ es ∧ p = encode ds ∧ q = encode es) ∨
    ∃ ds c es p' q', cs = ds ++ c :: es ∧ encodeChar c = p' ++ q' ∧ p' ≠ [] ∧ q' ≠ [] ∧
      p = encode ds ++ p' ∧ q = q' ++ encode es := by
  induction cs generalizing p with
  | nil =>
    obtain ⟨rfl, rfl⟩ := List.append_eq_nil_iff.1 h.symm
    exact .inl ⟨[], [], rfl, rfl, rfl⟩
  | cons c cs ih =>
    rw [encode_cons, List.append_eq_append_iff] at h
    rcases h with ⟨r, rfl, hr⟩ | ⟨r, hr, rfl⟩
    · obtain ⟨ds, es, rfl, rfl, rfl⟩ | ⟨ds, d, es, p', q', rfl, hd, hp, hq, rfl, rfl⟩ := ih hr
      · exact .inl ⟨c :: ds, es, rfl, rfl, rfl⟩
      · exact .inr ⟨c :: ds, d, es, p', q', rfl, hd, hp, hq, by simp [encode_cons], rfl⟩
    · by_cases hp : p = []
      · subst hp
        exact .inl ⟨[], c :: cs, rfl, rfl, by rw [encode_cons, hr]; simp⟩
      by_cases hq : r = []
      · subst hq
        exact .inl ⟨[c], cs, rfl, by simp [encode_cons, encode_nil, hr], by simp⟩
      · exact .inr ⟨[], c, cs, p, r, rfl, hr, hp, hq, rfl, rfl⟩

/-! ## The newline -/

@[simp] theorem encodeChar_newline : encodeChar '\n' = [Line.newline] := rfl

/-- A byte below 128 is a character of its own. -/
theorem eq_of_mem_encodeChar {c : Char} {b : UInt8} (h : b ∈ encodeChar c) (hb : b.toNat < 0x80) :
    c.toNat = b.toNat := by
  obtain ⟨n, hn⟩ : ∃ n, c.toNat = n := ⟨_, rfl⟩
  have hvalid : n < 0xD800 ∨ 0xDFFF < n ∧ n < 0x110000 := hn ▸ c.valid
  -- every byte of a longer form is at least 128
  have high : ∀ {m : Nat}, 0x80 ≤ m → m < 256 → b ≠ m.toUInt8 := by
    intro m hlow hm hbm
    have := toNat_byte hm
    rw [← hbm] at this
    omega
  simp only [encodeChar, hn] at h
  split at h
  · obtain rfl := List.mem_singleton.1 h
    rw [hn, toNat_byte (by omega)]
  split at h
  · simp only [List.mem_cons, List.not_mem_nil, or_false] at h
    rcases h with h | h <;> exact absurd h (high (by omega) (by omega))
  split at h
  · simp only [List.mem_cons, List.not_mem_nil, or_false] at h
    rcases h with h | h | h <;> exact absurd h (high (by omega) (by omega))
  · simp only [List.mem_cons, List.not_mem_nil, or_false] at h
    rcases h with h | h | h | h <;> exact absurd h (high (by omega) (by omega))

theorem newline_not_mem_encodeChar {c : Char} (h : c ≠ '\n') : Line.newline ∉ encodeChar c := by
  intro hm
  have hc : c.toNat = '\n'.toNat := eq_of_mem_encodeChar hm (by decide)
  exact h (Char.toNat_inj.1 hc)

theorem newline_not_mem_encode {cs : List Char} (h : '\n' ∉ cs) : Line.newline ∉ encode cs := by
  intro hm
  obtain ⟨c, hc, hcm⟩ := List.mem_flatMap.1 hm
  exact newline_not_mem_encodeChar (fun e => h (e ▸ hc)) hcm

end Utf8

/-! ## Lines -/

namespace Line

open Utf8 (Bytes encode encodeChar)

/-- The lines that are complete. -/
def complete (bs : Bytes) : List Line := (ofBytes bs).filter (·.closed)

/-- What stands behind the last newline. -/
def remainder (bs : Bytes) : Bytes := ((ofBytes bs).filter (!·.closed)).flatMap (·.bytes)

/-- Puts bytes in front of the first line. -/
def prepend (p : Bytes) : List Line → List Line
  | [] => [⟨p, false⟩]
  | l :: ls => ⟨p ++ l.bytes, l.closed⟩ :: ls

theorem ofBytes_nil : ofBytes [] = [] := rfl

theorem ofBytes_cons_newline (bs : Bytes) : ofBytes (newline :: bs) = ⟨[], true⟩ :: ofBytes bs := by
  simp [ofBytes]

theorem ofBytes_cons {b : UInt8} (h : b ≠ newline) (bs : Bytes) :
    ofBytes (b :: bs) = prepend [b] (ofBytes bs) := by
  simp only [ofBytes, beq_iff_eq, h, if_false]
  cases ofBytes bs <;> rfl

theorem ofBytes_front {p : Bytes} (h : newline ∉ p) (hp : p ≠ []) (bs : Bytes) :
    ofBytes (p ++ bs) = prepend p (ofBytes bs) := by
  induction p with
  | nil => exact absurd rfl hp
  | cons b p ih =>
    rw [List.mem_cons, not_or] at h
    rw [List.cons_append, ofBytes_cons (Ne.symm h.1)]
    by_cases hp' : p = []
    · subst hp'
      rfl
    · rw [ih h.2 hp']
      cases ofBytes bs <;> rfl

theorem ofBytes_line {p : Bytes} (h : newline ∉ p) (bs : Bytes) :
    ofBytes (p ++ newline :: bs) = ⟨p, true⟩ :: ofBytes bs := by
  by_cases hp : p = []
  · subst hp
    exact ofBytes_cons_newline bs
  · rw [ofBytes_front h hp, ofBytes_cons_newline]
    simp [prepend]

theorem ofBytes_open {p : Bytes} (h : newline ∉ p) (hp : p ≠ []) : ofBytes p = [⟨p, false⟩] := by
  have h := ofBytes_front h hp []
  rwa [List.append_nil] at h

theorem ofBytes_eq_nil {bs : Bytes} (h : ofBytes bs = []) : bs = [] := by
  cases bs with
  | nil => rfl
  | cons b bs =>
    by_cases hb : b = newline
    · rw [hb, ofBytes_cons_newline] at h
      cases h
    · rw [ofBytes_cons hb] at h
      cases hbs : ofBytes bs <;> rw [hbs] at h <;> cases h

/-- Only the last line can be incomplete. -/
theorem ofBytes_eq_open {bs : Bytes} {l : Line} {ls : List Line} (h : ofBytes bs = l :: ls)
    (hl : l.closed = false) : ls = [] ∧ l.bytes = bs := by
  induction bs generalizing l with
  | nil => cases h
  | cons b bs ih =>
    by_cases hb : b = newline
    · subst hb
      rw [ofBytes_cons_newline] at h
      cases h
      cases hl
    · rw [ofBytes_cons hb] at h
      cases hbs : ofBytes bs with
      | nil =>
        rw [hbs] at h
        cases h
        exact ⟨rfl, by rw [ofBytes_eq_nil hbs]⟩
      | cons l' ls' =>
        rw [hbs] at h
        cases h
        obtain ⟨rfl, rfl⟩ := ih hbs hl
        exact ⟨rfl, rfl⟩

/-- Bytes that are read in two pieces: the complete lines of the first piece stay, and what is left of
it goes in front of the second. -/
theorem ofBytes_append (bs cs : Bytes) : ofBytes (bs ++ cs) = complete bs ++ ofBytes (remainder bs ++ cs) := by
  induction bs with
  | nil => rfl
  | cons b bs ih =>
    rw [List.cons_append]
    by_cases hb : b = newline
    · subst hb
      rw [ofBytes_cons_newline, ih]
      simp [complete, remainder, ofBytes_cons_newline]
    · rw [ofBytes_cons hb, ih]
      simp only [complete, remainder, ofBytes_cons hb]
      cases hbs : ofBytes bs with
      | nil => simp [prepend, ofBytes_cons hb]
      | cons l ls =>
        cases hl : l.closed with
        | true => simp [prepend, hl]
        | false =>
          obtain ⟨rfl, -⟩ := ofBytes_eq_open hbs hl
          simp [prepend, hl, ofBytes_cons hb]

theorem complete_append (bs cs : Bytes) :
    complete (bs ++ cs) = complete bs ++ complete (remainder bs ++ cs) := by
  rw [complete, ofBytes_append, List.filter_append]
  simp [complete, List.filter_filter]

theorem remainder_append (bs cs : Bytes) : remainder (bs ++ cs) = remainder (remainder bs ++ cs) := by
  rw [remainder, ofBytes_append, List.filter_append]
  simp [complete, remainder, List.filter_filter]

theorem remainder_newline (bs : Bytes) : remainder (bs ++ [newline]) = [] := by
  induction bs with
  | nil => rfl
  | cons b bs ih =>
    rw [List.cons_append, remainder]
    by_cases hb : b = newline
    · subst hb
      rw [ofBytes_cons_newline]
      exact ih
    · rw [ofBytes_cons hb]
      rw [remainder] at ih
      cases hl : ofBytes (bs ++ [newline]) with
      | nil => exact absurd (ofBytes_eq_nil hl) (by simp)
      | cons l ls =>
        rw [hl] at ih
        cases hc : l.closed with
        | true => simpa [prepend, hc] using ih
        | false =>
          obtain ⟨rfl, hbytes⟩ := ofBytes_eq_open hl hc
          simp [hc, hbytes] at ih

/-- The lines of the bytes of a text are the lines of the text. -/
theorem map_bytes_ofBytes_encode (cs : List Char) :
    (ofBytes (encode cs)).map (·.bytes) = (lines cs).map encode := by
  induction cs with
  | nil => simp [Utf8.encode_nil, ofBytes, lines_nil]
  | cons c cs ih =>
    by_cases hc : c = '\n'
    · subst hc
      rw [Utf8.encode_cons, Utf8.encodeChar_newline, List.singleton_append, ofBytes_cons_newline,
        lines_cons_newline]
      simp [ih, Utf8.encode_nil]
    · rw [Utf8.encode_cons, lines_cons hc,
        ofBytes_front (Utf8.newline_not_mem_encodeChar hc) (Utf8.encodeChar_ne_nil c)]
      -- the bytes of `c` go in front of the first line as `c` does
      cases hl : ofBytes (encode cs) with
      | nil =>
        rw [hl, List.map_nil] at ih
        rw [List.map_eq_nil_iff.1 ih.symm]
        simp [prepend, Utf8.encode_cons, Utf8.encode_nil]
      | cons l ls =>
        rw [hl, List.map_cons] at ih
        obtain ⟨t, ts, ht, hb, hbs⟩ := List.map_eq_cons_iff.1 ih.symm
        rw [ht]
        simp [prepend, Utf8.encode_cons, hb, hbs]

/-- The text of a line with its newline. -/
theorem decode_whole {l : Line} {cs : List Char} (h : l.bytes = encode cs) :
    ∃ ds, Utf8.decode l.whole = .ok (cs ++ ds) ∧ ∀ c ∈ ds, isBlank c = true := by
  rw [whole, h]
  split
  · refine ⟨['\n'], ?_, List.all_eq_true.1 (by decide)⟩
    rw [show encode cs ++ [newline] = encode (cs ++ ['\n']) from
      (Utf8.encode_append cs ['\n']).symm, Utf8.decode_encode]
  · exact ⟨[], by rw [Utf8.decode_encode, List.append_nil], by simp⟩

end Line

end Steward.Text
