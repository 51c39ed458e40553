import Steward.Json.Value
import Steward.Text.Numeral

/-!
# JSON tokens

The scanner walks over the characters once. Between two characters it is in a `Mode`, which holds
the token begun so far; `Mode.next` says what one more character does to it. So scanning is a plain
recursion on the text, and a concatenated text is scanned by scanning its parts in turn.
-/

namespace Steward.Json

inductive Token where
  | null
  | bool (b : Bool)
  | number (n : Number)
  | string (s : Literal)
  | beginArray
  | endArray
  | beginObject
  | endObject
  | comma
  | colon
  deriving Repr, DecidableEq

/-- How far a number has been read. -/
inductive NumberPart where
  | minus | zero | whole | point | fraction | mark | markSign | exponent
  deriving Repr, DecidableEq

/-- A number under construction; digits are kept last first. -/
structure NumberDraft where
  part : NumberPart
  negative : Bool
  whole : List Char
  fraction : List Char
  exponentNegative : Bool
  exponent : Nat
  deriving Repr, DecidableEq

namespace NumberDraft

def start (negative : Bool) (part : NumberPart) (whole : List Char) : NumberDraft :=
  ⟨part, negative, whole, [], false, 0⟩

/-- The number, if it may end here. -/
def finish (d : NumberDraft) : Option Number :=
  let fraction := if d.fraction.isEmpty then none else some d.fraction.reverse
  let exponent : Int := if d.exponentNegative then -(d.exponent : Int) else d.exponent
  match d.part with
  | .zero | .whole => some ⟨d.negative, d.whole.reverse, none, none⟩
  | .fraction => some ⟨d.negative, d.whole.reverse, fraction, none⟩
  | .exponent => some ⟨d.negative, d.whole.reverse, fraction, some exponent⟩
  | _ => none

/-- One more character of the number; `none` if it cannot belong to it. -/
def push (d : NumberDraft) (c : Char) : Option NumberDraft :=
  match Text.digit? c with
  | some v =>
    match d.part with
    | .minus => some { d with part := if c == '0' then .zero else .whole, whole := [c] }
    | .zero => none
    | .whole => some { d with whole := c :: d.whole }
    | .point | .fraction => some { d with part := .fraction, fraction := c :: d.fraction }
    | .mark | .markSign | .exponent =>
      some { d with part := .exponent, exponent := d.exponent * 10 + v }
  | none =>
    if c == '.' then
      match d.part with
      | .zero | .whole => some { d with part := .point }
      | _ => none
    else if c == 'e' || c == 'E' then
      match d.part with
      | .zero | .whole | .fraction => some { d with part := .mark }
      | _ => none
    else if c == '+' || c == '-' then
      match d.part with
      | .mark => some { d with part := .markSign, exponentNegative := c == '-' }
      | _ => none
    else none

end NumberDraft

/-- A string under construction: its characters, last first, and whether an unpaired surrogate was
met. -/
structure StringDraft where
  chars : List Char
  unpaired : Bool
  deriving Repr, DecidableEq

namespace StringDraft

def empty : StringDraft := ⟨[], false⟩

def push (d : StringDraft) (c : Char) : StringDraft := { d with chars := c :: d.chars }

def spoil (d : StringDraft) : StringDraft := { d with unpaired := true }

def finish (d : StringDraft) : Literal :=
  if d.unpaired then none else some (String.ofList d.chars.reverse)

end StringDraft

inductive Mode where
  /-- between tokens -/
  | idle
  /-- inside a string -/
  | string (d : StringDraft)
  /-- behind a backslash; `high` is the first half of a surrogate pair right before it -/
  | escape (d : StringDraft) (high : Option Nat)
  /-- inside `\u`, with `count` digits read -/
  | hex (d : StringDraft) (high : Option Nat) (count value : Nat)
  /-- behind the first half of a surrogate pair -/
  | afterHigh (d : StringDraft) (high : Nat)
  | number (d : NumberDraft)
  /-- inside `null`, `true` or `false`, with `rest` still to come -/
  | word (token : Token) (rest : List Char)
  deriving Repr, DecidableEq

namespace Mode

def isHigh (n : Nat) : Bool := 0xD800 ≤ n && n ≤ 0xDBFF

def isLow (n : Nat) : Bool := 0xDC00 ≤ n && n ≤ 0xDFFF

/-- What one character does between tokens: the token it completes, if any, and the new mode. -/
def begin (c : Char) : Option (List Token × Mode) :=
  match c with
  | ' ' | '\n' | '\t' | '\r' => some ([], .idle)
  | '[' => some ([.beginArray], .idle)
  | ']' => some ([.endArray], .idle)
  | '\x7b' => some ([.beginObject], .idle)
  | '\x7d' => some ([.endObject], .idle)
  | ',' => some ([.comma], .idle)
  | ':' => some ([.colon], .idle)
  | '"' => some ([], .string .empty)
  | 'n' => some ([], .word .null ['u', 'l', 'l'])
  | 't' => some ([], .word (.bool true) ['r', 'u', 'e'])
  | 'f' => some ([], .word (.bool false) ['a', 'l', 's', 'e'])
  | '-' => some ([], .number (.start true .minus []))
  | c =>
    match Text.digit? c with
    | some _ => some ([], .number (.start false (if c == '0' then .zero else .whole) [c]))
    | none => none

/-- One character inside a string. -/
def inString (d : StringDraft) (c : Char) : Option (List Token × Mode) :=
  if c == '"' then some ([.string d.finish], .idle)
  else if c == '\\' then some ([], .escape d none)
  else if c.toNat < 0x20 then none
  else some ([], .string (d.push c))

/-- One character behind a backslash, other than `u`. -/
def inEscape (d : StringDraft) (c : Char) : Option (List Token × Mode) :=
  match c with
  | '"' | '\\' | '/' => some ([], .string (d.push c))
  | 'b' => some ([], .string (d.push '\x08'))
  | 'f' => some ([], .string (d.push '\x0c'))
  | 'n' => some ([], .string (d.push '\n'))
  | 'r' => some ([], .string (d.push '\r'))
  | 't' => some ([], .string (d.push '\t'))
  | _ => none

/-- The mode behind the four digits of `\u`. -/
def afterHex (d : StringDraft) (high : Option Nat) (value : Nat) : Mode :=
  match high with
  | some h =>
    if isLow value then
      .string (d.push (Char.ofNat (0x10000 + (h - 0xD800) * 1024 + (value - 0xDC00))))
    else if isHigh value then .afterHigh d.spoil value
    else .string d.spoil
  | none =>
    if isHigh value then .afterHigh d value
    else if isLow value then .string d.spoil
    else .string (d.push (Char.ofNat value))

/-- The tokens that one character completes and the mode behind it. -/
def next (m : Mode) (c : Char) : Option (List Token × Mode) :=
  match m with
  | .idle => begin c
  | .string d => inString d c
  | .escape d high =>
    if c == 'u' then some ([], .hex d high 0 0)
    else inEscape (if high.isSome then d.spoil else d) c
  | .hex d high count value =>
    match Text.hexDigit? c with
    | none => none
    | some v =>
      let value := value * 16 + v
      if count == 3 then some ([], afterHex d high value)
      else some ([], .hex d high (count + 1) value)
  | .afterHigh d high =>
    if c == '\\' then some ([], .escape d (some high)) else inString d.spoil c
  | .number d =>
    match d.push c with
    | some d => some ([], .number d)
    | none =>
      match d.finish, begin c with
      | some n, some (tokens, mode) => some (.number n :: tokens, mode)
      | _, _ => none
  | .word token rest =>
    match rest with
    | [] => none
    | r :: rest =>
      if c == r then
        if rest.isEmpty then some ([token], .idle) else some ([], .word token rest)
      else none

/-- The tokens completed by the end of the text. -/
def finish : Mode → Option (List Token)
  | .idle => some []
  | .number d => d.finish.map fun n => [.number n]
  | _ => none

end Mode

/-- Scans the rest of a text from the mode `m`; completed tokens are collected last first. -/
def scanFrom (m : Mode) (done : List Token) : List Char → Option (List Token)
  | [] => m.finish.map fun tokens => (tokens.reverse ++ done).reverse
  | c :: cs =>
    match m.next c with
    | some (tokens, m) => scanFrom m (tokens.reverse ++ done) cs
    | none => none

/-- The tokens of a text, or `none` if it holds something that is no token. -/
def scan (cs : List Char) : Option (List Token) := scanFrom .idle [] cs

end Steward.Json
