import Steward.Text.Numeral

/-!
# Arithmetic in shell words

Whole numbers, variables, the four operations, remainders, comparisons and the logical connectives.
Division goes toward zero. A variable that is not set counts as zero; a text that is no expression has
no value.
-/

namespace Steward.Shell.Arithmetic

inductive Token where
  | number (n : Nat)
  | name (text : String)
  | operator (text : String)
  deriving Repr, DecidableEq

/-- The operators, longer ones first. -/
def operators : List String :=
  ["==", "!=", "<=", ">=", "&&", "||", "+", "-", "*", "/", "%", "<", ">", "!", "(", ")"]

def tokens : Nat → List Char → Option (List Token)
  | 0, _ => none
  | _ + 1, [] => some []
  | fuel + 1, c :: cs =>
    if c == ' ' || c == '\t' || c == '\n' then tokens fuel cs
    else if c.isDigit then
      let digits := (c :: cs).takeWhile Char.isDigit
      (tokens fuel ((c :: cs).drop digits.length)).map (.number ((Text.decimal? digits).getD 0) :: ·)
    else if c.isAlpha || c == '_' || c == '$' then
      let rest := if c == '$' then cs else c :: cs
      let name := rest.takeWhile fun c => c.isAlphanum || c == '_'
      (tokens fuel (rest.drop name.length)).map (.name (String.ofList name) :: ·)
    else
      match operators.find? fun op => op.toList.isPrefixOf (c :: cs) with
      | some op => (tokens fuel ((c :: cs).drop op.length)).map (.operator op :: ·)
      | none => none

/-- How tightly an operator binds; `none` for what stands between no two numbers. -/
def tightness : String → Option Nat
  | "||" => some 1
  | "&&" => some 2
  | "==" | "!=" => some 3
  | "<" | "<=" | ">" | ">=" => some 4
  | "+" | "-" => some 5
  | "*" | "/" | "%" => some 6
  | _ => none

def truth (b : Bool) : Int := if b then 1 else 0

/-- One operation; there is no division by zero. -/
def apply : String → Int → Int → Option Int
  | "||", a, b => some (truth (a != 0 || b != 0))
  | "&&", a, b => some (truth (a != 0 && b != 0))
  | "==", a, b => some (truth (a == b))
  | "!=", a, b => some (truth (a != b))
  | "<", a, b => some (truth (a < b))
  | "<=", a, b => some (truth (a ≤ b))
  | ">", a, b => some (truth (b < a))
  | ">=", a, b => some (truth (b ≤ a))
  | "+", a, b => some (a + b)
  | "-", a, b => some (a - b)
  | "*", a, b => some (a * b)
  | "/", a, b => if b == 0 then none else some (Int.tdiv a b)
  | "%", a, b => if b == 0 then none else some (Int.tmod a b)
  | _, _, _ => none

mutual

/-- An operand with the signs in front of it. -/
def operand (value : String → Int) : Nat → List Token → Option (Int × List Token)
  | 0, _ => none
  | fuel + 1, ts =>
    match ts with
    | .number n :: rest => some (n, rest)
    | .name text :: rest => some (value text, rest)
    | .operator "-" :: rest => (operand value fuel rest).map fun (a, rest) => (-a, rest)
    | .operator "+" :: rest => operand value fuel rest
    | .operator "!" :: rest => (operand value fuel rest).map fun (a, rest) => (truth (a == 0), rest)
    | .operator "(" :: rest =>
      match expression value fuel 0 rest with
      | some (a, .operator ")" :: rest) => some (a, rest)
      | _ => none
    | _ => none

/-- Operands joined by operators that bind at least as tightly as `least`. -/
def expression (value : String → Int) : Nat → Nat → List Token → Option (Int × List Token)
  | 0, _, _ => none
  | fuel + 1, least, ts => do
    let (a, rest) ← operand value fuel ts
    behind value fuel least a rest

def behind (value : String → Int) : Nat → Nat → Int → List Token → Option (Int × List Token)
  | 0, _, _, _ => none
  | fuel + 1, least, a, ts =>
    match ts with
    | .operator op :: rest =>
      match tightness op with
      | some t =>
        if t < least then some (a, ts)
        else do
          let (b, rest) ← expression value fuel (t + 1) rest
          behind value fuel least (← apply op a b) rest
      | none => some (a, ts)
    | _ => some (a, ts)

end

/-- The value of an expression. -/
def evaluate (value : String → Int) (text : String) : Option Int := do
  let ts ← tokens (text.length + 1) text.toList
  match expression value (4 * (ts.length + 1)) 0 ts with
  | some (a, []) => some a
  | _ => none

end Steward.Shell.Arithmetic
