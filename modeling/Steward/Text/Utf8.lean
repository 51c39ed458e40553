/-!
# UTF-8

Decoding of byte sequences in two ways: exactly, with the place of the first fault, and leniently,
where every maximal faulty piece becomes one replacement character.

A faulty piece is the longest prefix of a well-formed sequence that stands at the fault, and at
least one byte. It is *cut short* when the bytes end inside it.
-/

namespace Steward.Text.Utf8

abbrev Bytes := List UInt8

/-- What stands at the front of a byte sequence. -/
inductive Front where
  /-- one character, taking `size` bytes -/
  | char (c : Char) (size : Nat)
  /-- a faulty piece of `size` bytes -/
  | fault (size : Nat)
  /-- the bytes end inside a character -/
  | cut
  deriving Repr, DecidableEq

/-- Whether `b` continues a character. -/
def isContinuation (b : UInt8) : Bool := 0x80 ≤ b && b ≤ 0xBF

/-- The range of the second byte that the first byte leaves open, and how many continuation bytes
follow the first one. Overlong forms, surrogates and values above U+10FFFF are ruled out by the
second byte. -/
def lead (b : UInt8) : Option (Nat × UInt8 × UInt8) :=
  if 0xC2 ≤ b && b ≤ 0xDF then some (1, 0x80, 0xBF)
  else if b == 0xE0 then some (2, 0xA0, 0xBF)
  else if 0xE1 ≤ b && b ≤ 0xEC then some (2, 0x80, 0xBF)
  else if b == 0xED then some (2, 0x80, 0x9F)
  else if b == 0xEE || b == 0xEF then some (2, 0x80, 0xBF)
  else if b == 0xF0 then some (3, 0x90, 0xBF)
  else if 0xF1 ≤ b && b ≤ 0xF3 then some (3, 0x80, 0xBF)
  else if b == 0xF4 then some (3, 0x80, 0x8F)
  else none

/-- Reads the first character. -/
def front (b : UInt8) (rest : Bytes) : Front :=
  if b < 0x80 then .char (Char.ofNat b.toNat) 1
  else
    match lead b with
    | none => .fault 1
    | some (n, lo, hi) =>
      match rest with
      | [] => .cut
      | b1 :: rest1 =>
        if !(lo ≤ b1 && b1 ≤ hi) then .fault 1
        else if n == 1 then
          .char (Char.ofNat ((b.toNat - 0xC0) * 64 + (b1.toNat - 0x80))) 2
        else
          match rest1 with
          | [] => .cut
          | b2 :: rest2 =>
            if !isContinuation b2 then .fault 2
            else if n == 2 then
              .char (Char.ofNat
                ((b.toNat - 0xE0) * 4096 + (b1.toNat - 0x80) * 64 + (b2.toNat - 0x80))) 3
            else
              match rest2 with
              | [] => .cut
              | b3 :: _ =>
                if !isContinuation b3 then .fault 3
                else
                  .char (Char.ofNat
                    ((b.toNat - 0xF0) * 262144 + (b1.toNat - 0x80) * 4096 +
                      (b2.toNat - 0x80) * 64 + (b3.toNat - 0x80))) 4

/-- Where and how a byte sequence fails to be UTF-8. -/
inductive Fault where
  | invalid (size index : Nat)
  | incomplete (index : Nat)
  deriving Repr, DecidableEq

/-- The wording of a decoding failure. -/
def Fault.message : Fault → String
  | .invalid size index =>
    s!"invalid utf-8 sequence of {size} bytes from index {index}"
  | .incomplete index => s!"incomplete utf-8 byte sequence from index {index}"

/-- Decodes behind position `index`, skipping `skip` bytes that belong to a character already
read. -/
def decodeFrom (index skip : Nat) : Bytes → Except Fault (List Char)
  | [] => .ok []
  | b :: rest =>
    match skip with
    | skip + 1 => decodeFrom (index + 1) skip rest
    | 0 =>
      match front b rest with
      | .char c size =>
        match decodeFrom (index + 1) (size - 1) rest with
        | .ok cs => .ok (c :: cs)
        | .error e => .error e
      | .fault size => .error (.invalid size index)
      | .cut => .error (.incomplete index)

/-- The characters of a byte sequence, or its first fault. -/
def decode (bytes : Bytes) : Except Fault (List Char) := decodeFrom 0 0 bytes

/-- U+FFFD, which stands for bytes that denote no character. -/
def replacement : Char := Char.ofNat 0xFFFD

/-- Decodes leniently, skipping `skip` bytes that are already accounted for. -/
def decodeLossyFrom (skip : Nat) : Bytes → List Char
  | [] => []
  | b :: rest =>
    match skip with
    | skip + 1 => decodeLossyFrom skip rest
    | 0 =>
      match front b rest with
      | .char c size => c :: decodeLossyFrom (size - 1) rest
      | .fault size => replacement :: decodeLossyFrom (size - 1) rest
      | .cut => [replacement]

/-- The characters of a byte sequence, with U+FFFD for every faulty piece. -/
def decodeLossy (bytes : Bytes) : List Char := decodeLossyFrom 0 bytes

/-- The bytes of one character. -/
def encodeChar (c : Char) : Bytes :=
  let n := c.toNat
  if n < 0x80 then [n.toUInt8]
  else if n < 0x800 then [(0xC0 + n / 64).toUInt8, (0x80 + n % 64).toUInt8]
  else if n < 0x10000 then
    [(0xE0 + n / 4096).toUInt8, (0x80 + n / 64 % 64).toUInt8, (0x80 + n % 64).toUInt8]
  else
    [(0xF0 + n / 262144).toUInt8, (0x80 + n / 4096 % 64).toUInt8, (0x80 + n / 64 % 64).toUInt8,
      (0x80 + n % 64).toUInt8]

/-- The bytes of a text. -/
def encode (cs : List Char) : Bytes := cs.flatMap encodeChar

end Steward.Text.Utf8
