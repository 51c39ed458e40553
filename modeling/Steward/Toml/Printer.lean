import Steward.Text.Numeral

/-!
# Writing TOML

Texts are written in the plainest form that can hold them. `Style.of` picks the form from four
features of the text; the two basic forms can hold every text, because they escape.
-/

namespace Steward.Toml

/-- The longest run of `c` in a text, given the length of the run right before it. -/
def longestRun (c : Char) (current best : Nat) : List Char → Nat
  | [] => best
  | d :: ds =>
    if d == c then longestRun c (current + 1) (max best (current + 1)) ds
    else longestRun c 0 best ds

/-- The features of a text that decide its form. -/
structure Features where
  /-- a control character other than tab and newline -/
  control : Bool
  backslash : Bool
  newline : Bool
  /-- the longest runs of the two quotes -/
  singles : Nat
  doubles : Nat
  deriving Repr, DecidableEq

def isControl (c : Char) : Bool :=
  (c.toNat < 0x20 && c != '\t' && c != '\n') || c.toNat == 0x7F

def Features.of (cs : List Char) : Features where
  control := cs.any isControl
  backslash := cs.contains '\\'
  newline := cs.contains '\n'
  singles := longestRun '\'' 0 0 cs
  doubles := longestRun '"' 0 0 cs

inductive Style where
  | basic
  | literal
  | blockBasic
  | blockLiteral
  deriving Repr, DecidableEq

/-- The plainest form that can hold a text with these features. -/
def Style.of (f : Features) : Style :=
  if !f.control && !f.backslash && f.doubles == 0 && !f.newline then .basic
  else if !f.control && f.singles == 0 && !f.newline then .literal
  else if !f.control && !f.backslash && f.doubles ≤ 2 then .blockBasic
  else if !f.control && f.singles ≤ 2 then .blockLiteral
  else if f.newline then .blockBasic
  else .basic

/-- The escape of one character in a basic text, if it needs one. -/
def escape? (block : Bool) (c : Char) : Option (List Char) :=
  match c with
  | '\x08' => some ['\\', 'b']
  | '\t' => some ['\\', 't']
  | '\n' => if block then none else some ['\\', 'n']
  | '\x0c' => some ['\\', 'f']
  | '\r' => some ['\\', 'r']
  | '\\' => some ['\\', '\\']
  | c => if isControl c then some ('\\' :: 'u' :: (Text.hexUpper 4 c.toNat).toList) else none

/-- The content of a basic text behind `quotes` unescaped quotes in a row. In the block form every
third quote of a run is escaped, in the other form every one. -/
def escaped (block : Bool) (quotes : Nat) : List Char → List Char
  | [] => []
  | c :: cs =>
    if c == '"' then
      if (if block then 2 else 0) ≤ quotes then '\\' :: '"' :: escaped block 0 cs
      else '"' :: escaped block (quotes + 1) cs
    else
      match escape? block c with
      | some e => e ++ escaped block 0 cs
      | none => c :: escaped block 0 cs

/-- A text in the form that its features ask for. A block form opens with a line break when the
text has one of its own. -/
def quote (cs : List Char) : List Char :=
  let f := Features.of cs
  let lead := if f.newline then ['\n'] else []
  match Style.of f with
  | .basic => '"' :: escaped false 0 cs ++ ['"']
  | .literal => '\'' :: cs ++ ['\'']
  | .blockBasic => ['"', '"', '"'] ++ lead ++ escaped true 0 cs ++ ['"', '"', '"']
  | .blockLiteral => ['\'', '\'', '\''] ++ lead ++ cs ++ ['\'', '\'', '\'']

/-- A value on a line of its own. -/
inductive Plain where
  | text (s : String)
  | natural (n : Nat)
  | flag (b : Bool)
  deriving Repr, DecidableEq

def Plain.render : Plain → List Char
  | .text s => quote s.toList
  | .natural n => Nat.toDigits 10 n
  | .flag true => "true".toList
  | .flag false => "false".toList

/-- The lines `key = value` of a section. -/
def renderLines : List (String × Plain) → List Char
  | [] => []
  | (key, v) :: rest => key.toList ++ " = ".toList ++ v.render ++ '\n' :: renderLines rest

/-- Sections with their headers, set apart by empty lines. -/
def renderSections : List (String × List (String × Plain)) → List Char
  | [] => []
  | [(name, lines)] => '[' :: name.toList ++ "]\n".toList ++ renderLines lines
  | (name, lines) :: s :: rest =>
    '[' :: name.toList ++ "]\n".toList ++ renderLines lines ++ '\n' :: renderSections (s :: rest)

end Steward.Toml
