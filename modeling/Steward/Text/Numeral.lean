/-!
# Unsigned numerals

A numeral is an optional plus sign and one or more ASCII digits. Reading one is bounded: a value
above the limit is refused, and so is any other character.
-/

namespace Steward.Text

/-- The value of an ASCII digit. -/
def digit? (c : Char) : Option Nat :=
  if '0' ≤ c && c ≤ '9' then some (c.toNat - '0'.toNat) else none

/-- The value of a hexadecimal digit in either case. -/
def hexDigit? (c : Char) : Option Nat :=
  if '0' ≤ c && c ≤ '9' then some (c.toNat - '0'.toNat)
  else if 'a' ≤ c && c ≤ 'f' then some (c.toNat - 'a'.toNat + 10)
  else if 'A' ≤ c && c ≤ 'F' then some (c.toNat - 'A'.toNat + 10)
  else none

/-- Reads digits in base `base` behind the value `acc`; `none` at the first character that is no
digit of that base. -/
def digitsFrom (base acc : Nat) : List Char → Option Nat
  | [] => some acc
  | c :: cs =>
    match hexDigit? c with
    | some d => if d < base then digitsFrom base (acc * base + d) cs else none
    | none => none

/-- A non-empty run of decimal digits. -/
def decimal? : List Char → Option Nat
  | [] => none
  | c :: cs => digitsFrom 10 0 (c :: cs)

/-- A decimal numeral with an optional plus sign and a value of at most `limit`. -/
def numeral? (limit : Nat) (cs : List Char) : Option Nat :=
  let digits := match cs with
    | '+' :: rest => rest
    | other => other
  match decimal? digits with
  | some n => if n ≤ limit then some n else none
  | none => none

/-- The largest values of the machine words that appear in settings and answers. -/
def maxU16 : Nat := 65535
def maxU64 : Nat := 18446744073709551615

/-- The decimal digits of `n`, at least `width` of them. -/
def padded (width n : Nat) : String :=
  let digits := Nat.toDigits 10 n
  String.ofList (List.replicate (width - digits.length) '0' ++ digits)

/-- The upper-case hexadecimal digits of `n`, at least `width` of them. -/
def hexUpper (width n : Nat) : String :=
  let digits := (Nat.toDigits 16 n).map Char.toUpper
  String.ofList (List.replicate (width - digits.length) '0' ++ digits)

/-- The lower-case hexadecimal digits of `n`, at least `width` of them. -/
def hexLower (width n : Nat) : String :=
  let digits := Nat.toDigits 16 n
  String.ofList (List.replicate (width - digits.length) '0' ++ digits)

end Steward.Text
