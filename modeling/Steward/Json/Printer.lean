import Steward.Json.Value
import Steward.Text.Numeral

/-!
# Writing JSON

The compact form: no blanks, members in their order. A string escapes the quote, the backslash and
the characters below U+0020, five of them by a letter; everything else stands for itself.
-/

namespace Steward.Json

/-- One character inside a string literal. -/
def escapeChar (c : Char) : List Char :=
  match c with
  | '"' => ['\\', '"']
  | '\\' => ['\\', '\\']
  | '\x08' => ['\\', 'b']
  | '\x0c' => ['\\', 'f']
  | '\n' => ['\\', 'n']
  | '\r' => ['\\', 'r']
  | '\t' => ['\\', 't']
  | c => if c.toNat < 0x20 then '\\' :: 'u' :: (Text.hexLower 4 c.toNat).toList else [c]

/-- A string literal. -/
def quote (s : String) : List Char := '"' :: s.toList.flatMap escapeChar ++ ['"']

namespace Number

/-- The digits of a number as they were written. -/
def render (n : Number) : List Char :=
  (if n.negative then ['-'] else []) ++ n.whole ++
    (match n.fraction with
      | some digits => '.' :: digits
      | none => []) ++
    (match n.exponent with
      | some e => 'e' :: (toString e).toList
      | none => [])

end Number

namespace Value

mutual

/-- The compact form. A string that denotes no text is written as an unpaired surrogate. -/
def render : Value → List Char
  | .null => "null".toList
  | .bool true => "true".toList
  | .bool false => "false".toList
  | .number n => n.render
  | .string (some s) => quote s
  | .string none => "\"\\ud800\"".toList
  | .array items => '[' :: renderItems items ++ [']']
  | .object members => '\x7b' :: renderMembers members ++ ['\x7d']

def renderItems : List Value → List Char
  | [] => []
  | [v] => v.render
  | v :: w :: vs => v.render ++ ',' :: renderItems (w :: vs)

def renderMembers : List (Literal × Value) → List Char
  | [] => []
  | [(k, v)] => quote (k.getD "") ++ ':' :: v.render
  | (k, v) :: m :: ms => quote (k.getD "") ++ ':' :: v.render ++ ',' :: renderMembers (m :: ms)

end

/-- The compact form as a string. -/
def compact (v : Value) : String := String.ofList v.render

end Value

end Steward.Json
