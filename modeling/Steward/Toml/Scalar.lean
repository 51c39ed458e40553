import Steward.Text.Blank
import Steward.Text.Decimal
import Steward.Toml.Value

/-!
# Plain TOML values

Booleans, integers, floats and dates are written without quotes. Each has its own grammar, and no
word belongs to two of them.
-/

namespace Steward.Toml.Scalar

open Steward.Text

/-- Takes the single underscores out of a run of digits. They may stand only between two digits. -/
def ungroup (isDigit : Char → Bool) : List Char → Option (List Char)
  | [] => none
  | [c] => if isDigit c then some [c] else none
  | c :: '_' :: d :: rest =>
    if isDigit c then (ungroup isDigit (d :: rest)).map (c :: ·) else none
  | c :: d :: rest =>
    if isDigit c then (ungroup isDigit (d :: rest)).map (c :: ·) else none

/-- Ungrouped decimal digits. -/
def decimalDigits (cs : List Char) : Option (List Char) := ungroup (fun c => (digit? c).isSome) cs

/-- Ungrouped decimal digits without a superfluous zero in front. -/
def wholeDigits (cs : List Char) : Option (List Char) :=
  match decimalDigits cs with
  | some ('0' :: _ :: _) => none
  | other => other

/-- A sign, if there is one, and the rest. -/
def splitSign : List Char → Bool × List Char
  | '+' :: rest => (false, rest)
  | '-' :: rest => (true, rest)
  | other => (false, other)

/-- The integers that a reader can take up. -/
def integerMin : Int := -(Nat.pow 2 127 : Nat)
def integerMax : Int := (Nat.pow 2 128 : Nat) - 1

/-- Digits of a base other than ten. -/
def based? (base : Nat) (cs : List Char) : Option Int :=
  match ungroup (fun c => (hexDigit? c).any (· < base)) cs with
  | some digits => (digitsFrom base 0 digits).map Int.ofNat
  | none => none

def integer? (cs : List Char) : Option Int :=
  let value : Option Int := match cs with
    | '0' :: 'x' :: rest => based? 16 rest
    | '0' :: 'o' :: rest => based? 8 rest
    | '0' :: 'b' :: rest => based? 2 rest
    | cs =>
      let (negative, digits) := splitSign cs
      match wholeDigits digits with
      | some digits =>
        (digitsFrom 10 0 digits).map fun n => if negative then -(n : Int) else (n : Int)
      | none => none
  value.filter fun n => integerMin ≤ n && n ≤ integerMax

/-- Cuts at the first character that satisfies `p`, which belongs to neither part. -/
def cutAt (p : Char → Bool) : List Char → List Char × Option (List Char)
  | [] => ([], none)
  | c :: cs =>
    if p c then ([], some cs)
    else
      let (front, rest) := cutAt p cs
      (c :: front, rest)

/-- Digits, then a fraction or an exponent or both; the value must not round to infinity. -/
def isFloat (cs : List Char) : Bool :=
  let (_, cs) := splitSign cs
  if cs == "inf".toList || cs == "nan".toList then true
  else
    let (mantissa, exponent) := cutAt (fun c => c == 'e' || c == 'E') cs
    let (whole, fraction) := cutAt (· == '.') mantissa
    if fraction.isNone && exponent.isNone then false
    else
      let exponentValue : Option Int := match exponent with
        | none => some 0
        | some e =>
          let (negative, digits) := splitSign e
          match decimalDigits digits with
          | some digits =>
            (digitsFrom 10 0 digits).map fun n => if negative then -(n : Int) else (n : Int)
          | none => none
      let fractionDigits := match fraction with
        | none => some []
        | some f => decimalDigits f
      match wholeDigits whole, fractionDigits, exponentValue with
      | some w, some f, some e => !exceedsDouble (w ++ f) (e - f.length)
      | _, _, _ => false

/-- Two decimal digits. -/
def two? (a b : Char) : Option Nat :=
  match digit? a, digit? b with
  | some x, some y => some (x * 10 + y)
  | _, _ => none

def isLeapYear (year : Int) : Bool := year % 4 == 0 && (year % 100 != 0 || year % 400 == 0)

def daysInMonth (year : Int) (month : Nat) : Nat :=
  if month == 2 then (if isLeapYear year then 29 else 28)
  else if month == 4 || month == 6 || month == 9 || month == 11 then 30
  else 31

/-- A date `yyyy-mm-dd` that exists, and the rest behind it. -/
def date? : List Char → Option (List Char)
  | y1 :: y2 :: y3 :: y4 :: '-' :: m1 :: m2 :: '-' :: d1 :: d2 :: rest =>
    match two? y1 y2, two? y3 y4, two? m1 m2, two? d1 d2 with
    | some high, some low, some month, some day =>
      if 1 ≤ month && month ≤ 12 && 1 ≤ day &&
          day ≤ daysInMonth (high * 100 + low : Nat) month then
        some rest
      else none
    | _, _, _, _ => none
  | _ => none

/-- A fraction of a second, and the rest behind it. -/
def fraction? : List Char → Option (List Char)
  | '.' :: c :: rest =>
    if (digit? c).isSome then some (rest.dropWhile fun c => (digit? c).isSome) else none
  | '.' :: [] => none
  | other => some other

/-- A time `hh:mm`, `hh:mm:ss` or `hh:mm:ss.f…`, and the rest behind it. -/
def time? : List Char → Option (List Char)
  | h1 :: h2 :: ':' :: m1 :: m2 :: rest =>
    match two? h1 h2, two? m1 m2 with
    | some hour, some minute =>
      if hour ≤ 23 && minute ≤ 59 then
        match rest with
        | ':' :: s1 :: s2 :: rest =>
          match two? s1 s2 with
          | some second => if second ≤ 60 then fraction? rest else none
          | none => none
        | ':' :: _ => none
        | rest => some rest
      else none
    | _, _ => none
  | _ => none

/-- A distance from universal time, or nothing. -/
def isOffset : List Char → Bool
  | [] => true
  | ['Z'] => true
  | ['z'] => true
  | [sign, h1, h2, ':', m1, m2] =>
    (sign == '+' || sign == '-') &&
      match two? h1 h2, two? m1 m2 with
      | some hour, some minute => hour ≤ 23 && minute ≤ 59
      | _, _ => false
  | _ => false

/-- A date, a time, or a date and a time with an optional offset. -/
def isMoment (cs : List Char) : Bool :=
  match date? cs with
  | some [] => true
  | some (delimiter :: rest) =>
    (delimiter == 'T' || delimiter == 't' || delimiter == ' ') &&
      match time? rest with
      | some offset => isOffset offset
      | none => false
  | none => time? cs == some []

/-- The value of a plain word. -/
def value? (cs : List Char) : Option Value :=
  if cs == "true".toList then some (.boolean true)
  else if cs == "false".toList then some (.boolean false)
  else
    match integer? cs with
    | some n => some (.integer n)
    | none =>
      if isFloat cs then some (.float (String.ofList cs))
      else if isMoment cs then some (.moment (String.ofList cs))
      else none

end Steward.Toml.Scalar
