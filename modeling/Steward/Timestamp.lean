import Steward.Text.Blank
import Steward.Text.Numeral

/-!
# Timestamps

A moment in universal time to the nanosecond. Second 60 is a leap second. Reading is generous: blanks
in front of each number, one-digit numbers, signed years of any length, a space for the `T`, and any
offset of less than a day. Writing has one form, with as many groups of three fraction digits as are
needed.
-/

namespace Steward

structure Date where
  year : Int
  month : Nat
  day : Nat
  deriving Repr, DecidableEq

namespace Date

def isLeap (year : Int) : Bool := year % 4 == 0 && (year % 100 != 0 || year % 400 == 0)

def daysIn (year : Int) : Nat → Nat
  | 2 => if isLeap year then 29 else 28
  | 4 | 6 | 9 | 11 => 30
  | _ => 31

/-- The years that can be represented. -/
def minYear : Int := -262143
def maxYear : Int := 262142

def isValid (d : Date) : Bool :=
  minYear ≤ d.year && d.year ≤ maxYear && 1 ≤ d.month && d.month ≤ 12 && 1 ≤ d.day &&
    d.day ≤ daysIn d.year d.month

def next (d : Date) : Date :=
  if d.day < daysIn d.year d.month then { d with day := d.day + 1 }
  else if d.month < 12 then ⟨d.year, d.month + 1, 1⟩
  else ⟨d.year + 1, 1, 1⟩

def prev (d : Date) : Date :=
  if 1 < d.day then { d with day := d.day - 1 }
  else if 1 < d.month then ⟨d.year, d.month - 1, daysIn d.year (d.month - 1)⟩
  else ⟨d.year - 1, 12, 31⟩

end Date

structure Timestamp where
  date : Date
  hour : Nat
  minute : Nat
  second : Nat
  nano : Nat
  deriving Repr, DecidableEq

namespace Timestamp

open Steward.Text

/-! ## Counting -/

/-- The date so many days later. -/
def daysAfter (d : Date) : Nat → Date
  | 0 => d
  | n + 1 => daysAfter d.next n

/-- The moment so many nanoseconds after the beginning of 1970. -/
def ofNanoseconds (n : Nat) : Timestamp :=
  let seconds := n / 1000000000
  { date := daysAfter ⟨1970, 1, 1⟩ (seconds / 86400)
    hour := seconds / 3600 % 24
    minute := seconds / 60 % 60
    second := seconds % 60
    nano := n % 1000000000 }

/-! ## Writing -/

/-- A year has four digits; one outside 0 to 9999 also has a sign. -/
def renderYear (year : Int) : String :=
  if 0 ≤ year && year ≤ 9999 then padded 4 year.toNat
  else (if year < 0 then "-" else "+") ++ padded 4 year.natAbs

def renderDate (t : Timestamp) : String :=
  renderYear t.date.year ++ "-" ++ padded 2 t.date.month ++ "-" ++ padded 2 t.date.day

def renderTime (t : Timestamp) : String :=
  padded 2 t.hour ++ ":" ++ padded 2 t.minute ++ ":" ++ padded 2 t.second

/-- The fraction of the second in no, three, six or nine digits. -/
def renderFraction (nano : Nat) : String :=
  if nano = 0 then ""
  else if nano % 1000000 = 0 then "." ++ padded 3 (nano / 1000000)
  else if nano % 1000 = 0 then "." ++ padded 6 (nano / 1000)
  else "." ++ padded 9 nano

/-- The form used in files. -/
def render (t : Timestamp) : String :=
  t.renderDate ++ "T" ++ t.renderTime ++ renderFraction t.nano ++ "Z"

/-- The form shown to people. -/
def display (t : Timestamp) : String := t.renderDate ++ " " ++ t.renderTime

/-! ## Reading -/

/-- What has been read and what is left. -/
abbrev Read (α : Type) := List Char → Option (α × List Char)

/-- One to `width` digits. -/
def number (width : Nat) : Read Nat := fun cs =>
  let digits := (cs.take width).takeWhile fun c => (digit? c).isSome
  (decimal? digits).map fun n => (n, cs.drop digits.length)

/-- A number of at most two digits behind blanks. -/
def pair : Read Nat := fun cs => number 2 (trimStart cs)

/-- A year behind blanks: four digits at most, or a sign and any number of them. -/
def year : Read Int := fun cs =>
  match trimStart cs with
  | '-' :: rest => (number rest.length rest).map fun (n, rest) => (-(n : Int), rest)
  | '+' :: rest => (number rest.length rest).map fun (n, rest) => ((n : Int), rest)
  | rest => (number 4 rest).map fun (n, rest) => ((n : Int), rest)

/-- One character, with blanks in front of it. -/
def mark (c : Char) : Read Unit := fun cs =>
  match trimStart cs with
  | d :: rest => if c == d then some ((), rest) else none
  | [] => none

/-- A point and digits, of which the first nine count; nothing at all is zero. -/
def fraction : Read Nat := fun cs =>
  match cs with
  | '.' :: rest =>
    let digits := rest.takeWhile fun c => (digit? c).isSome
    let counted := digits.take 9
    (decimal? counted).map fun n => (n * Nat.pow 10 (9 - counted.length), rest.drop digits.length)
  | cs => some (0, cs)

/-- Two digits exactly. -/
def twoDigits : Read Nat
  | a :: b :: rest => do return ((← digit? a) * 10 + (← digit? b), rest)
  | _ => none

/-- The minutes of an offset from universal time, behind its sign. -/
def offsetMinutes : Read Nat := fun cs => do
  let (hours, cs) ← twoDigits cs
  let (minutes, cs) ← twoDigits (cs.dropWhile fun c => c == ':' || isBlank c)
  if minutes < 60 && hours < 24 then some (hours * 60 + minutes, cs) else none

/-- The distance from universal time in minutes. -/
def offset : Read Int := fun cs =>
  if sameAsciiCase (cs.take 3) ['u', 't', 'c'] then some (0, cs.drop 3)
  else
    match cs with
    | 'Z' :: rest => some (0, rest)
    | 'z' :: rest => some (0, rest)
    | '+' :: rest => (offsetMinutes rest).map fun (n, rest) => ((n : Int), rest)
    | '-' :: rest => (offsetMinutes rest).map fun (n, rest) => (-(n : Int), rest)
    | '−' :: rest => (offsetMinutes rest).map fun (n, rest) => (-(n : Int), rest)
    | _ => none

/-- The same moment in universal time, given its local form and the offset. -/
def toUniversal (t : Timestamp) (offset : Int) : Timestamp :=
  let minutes : Int := t.hour * 60 + t.minute - offset
  let date :=
    if minutes < 0 then t.date.prev else if 1440 ≤ minutes then t.date.next else t.date
  let ofDay := (minutes % 1440).toNat
  { t with date := date, hour := ofDay / 60, minute := ofDay % 60 }

/-- The character between date and time. -/
def isDivider (c : Char) : Bool := c == 'T' || c == 't' || c == ' '

/-- The moment that a text denotes. -/
def parse (cs : List Char) : Option Timestamp := do
  let (year, cs) ← year cs
  let (_, cs) ← mark '-' cs
  let (month, cs) ← pair cs
  let (_, cs) ← mark '-' cs
  let (day, cs) ← pair cs
  let cs ← match cs with
    | c :: rest => if isDivider c then some rest else none
    | [] => none
  let (hour, cs) ← pair cs
  let (_, cs) ← mark ':' cs
  let (minute, cs) ← pair cs
  let (_, cs) ← mark ':' cs
  let (second, cs) ← pair cs
  let (nano, cs) ← fraction cs
  let (offset, cs) ← offset (trimStart cs)
  let date : Date := ⟨year, month, day⟩
  guard (date.isValid && hour < 24 && minute < 60 && second ≤ 60 && (trimStart cs).isEmpty)
  let t := toUniversal ⟨date, hour, minute, second, nano⟩ offset
  guard t.date.isValid
  return t

end Timestamp

end Steward
