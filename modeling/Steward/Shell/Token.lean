import Steward.Shell.Syntax
import Steward.Text.Numeral

/-!
# Tokens of shell scripts

Reading a script from left to right. Blanks set words apart, operators stand for themselves, a `#` at
the beginning of a word starts a comment. Inside a word, quotes and dollar signs decide what the pieces
are.

Every loop counts down from the number of characters that are left.
-/

namespace Steward.Shell

/-- What can be wrong with the text of a script. -/
inductive SyntaxError where
  | unterminatedQuote
  | unterminatedBackquote
  | missingBrace
  | missingParentheses
  | badSubstitution
  | badLoopVariable
  /-- a token, or else the end, in the wrong place; perhaps another one was expected there -/
  | unexpected (token : Option String) (expected : Option String)
  deriving Repr, DecidableEq

namespace SyntaxError

def message : SyntaxError → String
  | .unterminatedQuote => "Syntax error: Unterminated quoted string"
  | .unterminatedBackquote => "Syntax error: EOF in backquote substitution"
  | .missingBrace => "Syntax error: Missing '\x7d'"
  | .missingParentheses => "Syntax error: Missing '))'"
  | .badSubstitution => "Bad substitution"
  | .badLoopVariable => "Syntax error: Bad for loop variable"
  | .unexpected token expected =>
    let hint := match expected with
      | some text => " (expecting \"" ++ text ++ "\")"
      | none => ""
    "Syntax error: " ++ token.getD "end of file" ++ " unexpected" ++ hint

/-- The text ends too early. -/
def unexpectedEnd : SyntaxError := .unexpected none none

end SyntaxError

inductive Token where
  | word (w : Word)
  | operator (text : String)
  | redirect (descriptor : Option Nat) (operator : String)
  | newline
  deriving Repr, DecidableEq

/-- A token with the line it is on. -/
structure Placed where
  token : Token
  line : Nat
  deriving Repr, DecidableEq

def isMeta (c : Char) : Bool := " \t\n;&|<>()".toList.contains c

def isNameStart (c : Char) : Bool := c.isAlpha || c == '_'

def isNameChar (c : Char) : Bool := c.isAlphanum || c == '_'

/-- Parameters whose name is one special character. -/
def isSpecial (c : Char) : Bool := "@*#?$!-".toList.contains c || c.isDigit

/-! ## Nested texts -/

/-- The text up to the closing parenthesis that matches one already read, and what is behind it. -/
def untilParenthesis : Nat → Nat → List Char → Except SyntaxError (List Char × List Char)
  | 0, _, _ => .error (.unexpected none (some ")"))
  | _ + 1, _, [] => .error (.unexpected none (some ")"))
  | fuel + 1, depth, c :: cs => do
    if c == ')' && depth == 0 then return ([], cs)
    else if c == '\'' then
      let quoted := cs.takeWhile (· != '\'')
      let (text, rest) ← untilParenthesis fuel depth (cs.drop (quoted.length + 1))
      return (c :: quoted ++ '\'' :: text, rest)
    else
      let depth := if c == '(' then depth + 1 else if c == ')' then depth - 1 else depth
      let (text, rest) ← untilParenthesis fuel depth cs
      return (c :: text, rest)

/-- The text up to a closing brace. -/
def untilBrace : List Char → Except SyntaxError (List Char × List Char)
  | [] => .error .missingBrace
  | c :: cs =>
    if c == '\x7d' then .ok ([], cs)
    else do
      let (text, rest) ← untilBrace cs
      return (c :: text, rest)

/-- What stands between braces behind a dollar sign. -/
def bracedParameter (cs : List Char) (quoted : Bool) : Except SyntaxError Piece :=
  let parameter (name : List Char) (form : Form) : Piece :=
    .parameter (String.ofList name) form quoted
  match cs with
  | '#' :: c :: rest =>
    if isNameStart c || isSpecial c then .ok (parameter (c :: rest) .length)
    else .ok (parameter ['#'] .whole)
  | _ =>
    let name := match cs with
      | c :: _ =>
        if isNameStart c then cs.takeWhile isNameChar
        else if c.isDigit then cs.takeWhile Char.isDigit
        else if isSpecial c then [c]
        else []
      | [] => []
    let word (rest : List Char) : String := String.ofList rest
    match name, cs.drop name.length with
    | [], _ => .error .badSubstitution
    | _, [] => .ok (parameter name .whole)
    | _, ':' :: '-' :: rest => .ok (parameter name (.otherwise true (word rest)))
    | _, '-' :: rest => .ok (parameter name (.otherwise false (word rest)))
    | _, ':' :: '+' :: rest => .ok (parameter name (.instead true (word rest)))
    | _, '+' :: rest => .ok (parameter name (.instead false (word rest)))
    | _, '#' :: '#' :: rest => .ok (parameter name (.withoutFront true (word rest)))
    | _, '#' :: rest => .ok (parameter name (.withoutFront false (word rest)))
    | _, '%' :: '%' :: rest => .ok (parameter name (.withoutEnd true (word rest)))
    | _, '%' :: rest => .ok (parameter name (.withoutEnd false (word rest)))
    | _, _ => .error .badSubstitution

/-- Drops the last parenthesis of an arithmetic expression, which closes it a second time. -/
def arithmeticText (text : List Char) : List Char :=
  match text.reverse with
  | ')' :: rest => rest.reverse
  | _ => text

/-- The piece behind a dollar sign. -/
def readDollar (cs : List Char) (quoted : Bool) : Except SyntaxError (Piece × List Char) :=
  match cs with
  | '(' :: '(' :: rest =>
    match untilParenthesis (rest.length + 1) 1 rest with
    | .ok (text, rest) => .ok (.arithmetic (String.ofList (arithmeticText text)) quoted, rest)
    | .error _ => .error .missingParentheses
  | '(' :: rest => do
    let (text, rest) ← untilParenthesis (rest.length + 1) 0 rest
    return (.substitution (String.ofList text) quoted, rest)
  | '\x7b' :: rest => do
    let (text, rest) ← untilBrace rest
    return (← bracedParameter text quoted, rest)
  | c :: rest =>
    if isNameStart c then
      let name := (c :: rest).takeWhile isNameChar
      .ok (.parameter (String.ofList name) .whole quoted, (c :: rest).drop name.length)
    else if isSpecial c then .ok (.parameter (String.singleton c) .whole quoted, rest)
    else .ok (.literal "$" quoted, cs)
  | [] => .ok (.literal "$" quoted, [])

/-- The text up to a closing backquote; a backslash takes the meaning from a few characters. -/
def untilBackquote : List Char → Except SyntaxError (List Char × List Char)
  | [] => .error .unterminatedBackquote
  | '\\' :: c :: cs => do
    let (text, rest) ← untilBackquote cs
    return (if c == '\\' || c == '\x60' || c == '$' then (c :: text, rest) else ('\\' :: c :: text, rest))
  | c :: cs =>
    if c == '\x60' then .ok ([], cs)
    else do
      let (text, rest) ← untilBackquote cs
      return (c :: text, rest)

/-! ## Words -/

/-- Puts one character in front of the pieces behind it. -/
def consChar (c : Char) (quoted : Bool) : Word → Word
  | .literal text q :: ps =>
    if q == quoted then .literal (String.ofList (c :: text.toList)) q :: ps
    else .literal (String.singleton c) quoted :: .literal text q :: ps
  | ps => .literal (String.singleton c) quoted :: ps

/-- The pieces up to the closing double quote. -/
def readQuoted : Nat → List Char → Except SyntaxError (Word × List Char)
  | 0, _ => .error .unterminatedQuote
  | _ + 1, [] => .error .unterminatedQuote
  | fuel + 1, c :: cs =>
    if c == '"' then .ok ([], cs)
    else if c == '$' then do
      let (piece, cs) ← readDollar cs true
      let (ps, rest) ← readQuoted fuel cs
      return (piece :: ps, rest)
    else if c == '\x60' then do
      let (text, cs) ← untilBackquote cs
      let (ps, rest) ← readQuoted fuel cs
      return (.substitution (String.ofList text) true :: ps, rest)
    else
      match c, cs with
      | '\\', d :: cs => do
        let (ps, rest) ← readQuoted fuel cs
        if d == '\n' then return (ps, rest)
        else if "$\x60\"\\".toList.contains d then return (consChar d true ps, rest)
        else return (consChar '\\' true (consChar d true ps), rest)
      | _, _ => do
        let (ps, rest) ← readQuoted fuel cs
        return (consChar c true ps, rest)

/-- The pieces of a word and what is behind it. -/
def readWord : Nat → List Char → Except SyntaxError (Word × List Char)
  | 0, cs => .ok ([], cs)
  | _ + 1, [] => .ok ([], [])
  | fuel + 1, c :: cs =>
    if isMeta c then .ok ([], c :: cs)
    else if c == '\'' then do
      let quoted := cs.takeWhile (· != '\'')
      match cs.drop quoted.length with
      | [] => throw .unterminatedQuote
      | _ :: cs =>
        let (ps, rest) ← readWord fuel cs
        return (.literal (String.ofList quoted) true :: ps, rest)
    else if c == '"' then do
      let (inner, cs) ← readQuoted fuel cs
      let (ps, rest) ← readWord fuel cs
      -- an empty pair of quotes is a field, an empty list of arguments is none
      return ((if inner.isEmpty then [.literal "" true] else inner) ++ ps, rest)
    else if c == '$' then do
      let (piece, cs) ← readDollar cs false
      let (ps, rest) ← readWord fuel cs
      return (piece :: ps, rest)
    else if c == '\x60' then do
      let (text, cs) ← untilBackquote cs
      let (ps, rest) ← readWord fuel cs
      return (.substitution (String.ofList text) false :: ps, rest)
    else
      match c, cs with
      | '\\', d :: cs => do
        let (ps, rest) ← readWord fuel cs
        if d == '\n' then return (ps, rest) else return (.literal (String.singleton d) true :: ps, rest)
      | _, _ => do
        let (ps, rest) ← readWord fuel cs
        return (consChar c false ps, rest)

/-! ## Tokens -/

/-- The operator at the front, if there is one. -/
def operator? : List Char → Option (Token × List Char)
  | '\n' :: cs => some (.newline, cs)
  | ';' :: ';' :: cs => some (.operator ";;", cs)
  | ';' :: cs => some (.operator ";", cs)
  | '&' :: '&' :: cs => some (.operator "&&", cs)
  | '&' :: cs => some (.operator "&", cs)
  | '|' :: '|' :: cs => some (.operator "||", cs)
  | '|' :: cs => some (.operator "|", cs)
  | '(' :: cs => some (.operator "(", cs)
  | ')' :: cs => some (.operator ")", cs)
  | '<' :: '&' :: cs => some (.redirect none "<&", cs)
  | '<' :: cs => some (.redirect none "<", cs)
  | '>' :: '>' :: cs => some (.redirect none ">>", cs)
  | '>' :: '&' :: cs => some (.redirect none ">&", cs)
  | '>' :: '|' :: cs => some (.redirect none ">", cs)
  | '>' :: cs => some (.redirect none ">", cs)
  | _ => none

/-- A redirection with the number of a descriptor in front. -/
def numberedRedirect? (cs : List Char) : Option (Token × List Char) :=
  match Text.decimal? (cs.takeWhile Char.isDigit), operator? (cs.dropWhile Char.isDigit) with
  | some n, some (.redirect _ op, rest) => some (.redirect (some n) op, rest)
  | _, _ => none

/-- The line behind some characters, if they began on `line`. -/
def lineAfter (line : Nat) (before after : List Char) : Nat :=
  line + (before.count '\n' - after.count '\n')

/-- The tokens of a script that begins on `line`. -/
def tokensFrom : Nat → Nat → List Char → Except SyntaxError (List Placed)
  | 0, _, _ => .ok []
  | _ + 1, _, [] => .ok []
  | fuel + 1, line, c :: cs =>
    if c == ' ' || c == '\t' then tokensFrom fuel line cs
    else if c == '#' then tokensFrom fuel line (cs.dropWhile (· != '\n'))
    else
      match c, cs with
      | '\\', '\n' :: cs => tokensFrom fuel (line + 1) cs
      | _, _ =>
        match (operator? (c :: cs)).orElse fun _ => numberedRedirect? (c :: cs) with
        | some (token, rest) => do
          return ⟨token, line⟩ :: (← tokensFrom fuel (lineAfter line (c :: cs) rest) rest)
        | none => do
          let (w, rest) ← readWord fuel.succ (c :: cs)
          return ⟨.word w, line⟩ :: (← tokensFrom fuel (lineAfter line (c :: cs) rest) rest)

/-- The tokens of a script. -/
def tokens (cs : List Char) : Except SyntaxError (List Placed) := tokensFrom (cs.length + 1) 1 cs

end Steward.Shell
