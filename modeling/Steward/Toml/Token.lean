import Steward.Text.Numeral

/-!
# TOML tokens

The scanner walks over the characters once; between two of them it is in a `Mode` that holds the
token begun so far. Comments produce no token, because the line break behind them does.
-/

namespace Steward.Toml

inductive Quote where
  | basic
  | literal
  deriving Repr, DecidableEq

def Quote.char : Quote → Char
  | .basic => '"'
  | .literal => '\''

inductive Token where
  /-- a run of spaces and tabs -/
  | blank
  | newline
  /-- a run of characters with no meaning of their own: a bare key or a piece of a plain value -/
  | word (chars : List Char)
  /-- a quoted text; `long` for the three-quote forms -/
  | text (long : Bool) (s : String)
  | dot
  | comma
  | equals
  | openBracket
  | closeBracket
  | openBrace
  | closeBrace
  deriving Repr, DecidableEq

/-- The scanner's state; texts under construction are kept last character first. -/
inductive Mode where
  | idle
  | blank
  | word (chars : List Char)
  | comment
  /-- behind a carriage return outside of texts -/
  | returned
  /-- behind one or two opening quotes -/
  | opened (q : Quote) (count : Nat)
  | line (q : Quote) (chars : List Char)
  /-- in a three-quote text, with `quotes` quotes pending; `fresh` right behind the opening -/
  | block (q : Quote) (chars : List Char) (quotes : Nat) (fresh : Bool)
  /-- behind a carriage return in a three-quote text -/
  | blockReturned (q : Quote) (chars : List Char) (fresh : Bool)
  | escape (long : Bool) (chars : List Char)
  /-- in a numeric escape, with `left` digits still to come -/
  | hex (long : Bool) (chars : List Char) (left value : Nat)
  /-- behind a backslash at the end of a line -/
  | fold (chars : List Char) (newlineSeen : Bool)
  | foldReturned (chars : List Char)
  deriving Repr, DecidableEq

namespace Mode

/-- Whether a character may stand in a comment or, quoted, in a text. -/
def isPrintable (c : Char) : Bool := c == '\t' || (0x20 ≤ c.toNat && c.toNat != 0x7F)

/-- What one character does between tokens. -/
def begin (c : Char) : List Token × Mode :=
  match c with
  | ' ' | '\t' => ([], .blank)
  | '\n' => ([.newline], .idle)
  | '\r' => ([], .returned)
  | '#' => ([], .comment)
  | '"' => ([], .opened .basic 1)
  | '\'' => ([], .opened .literal 1)
  | '.' => ([.dot], .idle)
  | ',' => ([.comma], .idle)
  | '=' => ([.equals], .idle)
  | '[' => ([.openBracket], .idle)
  | ']' => ([.closeBracket], .idle)
  | '\x7b' => ([.openBrace], .idle)
  | '\x7d' => ([.closeBrace], .idle)
  | c => ([], .word [c])

def isWordChar (c : Char) : Bool :=
  !(" \t\n\r#\"'.,=[]\x7b\x7d".toList.contains c)

/-- The text behind `pending` quotes that turned out to be content. -/
def withQuotes (q : Quote) (pending : Nat) (chars : List Char) : List Char :=
  List.replicate pending q.char ++ chars

/-- A finished text. -/
def textOf (long : Bool) (chars : List Char) : Token := .text long (String.ofList chars.reverse)

/-- One character on a single-line text. -/
def inLine (q : Quote) (chars : List Char) (c : Char) : Option (List Token × Mode) :=
  if c == q.char then some ([textOf false chars], .idle)
  else if c == '\\' && q == .basic then some ([], .escape false chars)
  else if isPrintable c then some ([], .line q (c :: chars))
  else none

/-- One character in a three-quote text, with no quotes pending. -/
def inBlock (q : Quote) (chars : List Char) (fresh : Bool) (c : Char) :
    Option (List Token × Mode) :=
  if c == q.char then some ([], .block q chars 1 false)
  else if c == '\\' && q == .basic then some ([], .escape true chars)
  else if c == '\n' then some ([], .block q (if fresh then chars else c :: chars) 0 false)
  else if c == '\r' then some ([], .blockReturned q chars fresh)
  else if isPrintable c then some ([], .block q (c :: chars) 0 false)
  else none

/-- Continues a basic text. -/
def resume (long : Bool) (chars : List Char) : Mode :=
  if long then .block .basic chars 0 false else .line .basic chars

/-- The character named by a one-letter escape. -/
def escapeLetter? : Char → Option Char
  | 'b' => some '\x08'
  | 't' => some '\t'
  | 'n' => some '\n'
  | 'f' => some '\x0c'
  | 'r' => some '\r'
  | 'e' => some '\x1b'
  | '"' => some '"'
  | '\\' => some '\\'
  | _ => none

def isScalar (n : Nat) : Bool := n < 0xD800 || (0xDFFF < n && n < 0x110000)

/-- One character behind a backslash. -/
def inEscape (long : Bool) (chars : List Char) (c : Char) : Option (List Token × Mode) :=
  match escapeLetter? c with
  | some e => some ([], resume long (e :: chars))
  | none =>
    if c == 'x' then some ([], .hex long chars 2 0)
    else if c == 'u' then some ([], .hex long chars 4 0)
    else if c == 'U' then some ([], .hex long chars 8 0)
    else if !long then none
    else if c == ' ' || c == '\t' then some ([], .fold chars false)
    else if c == '\n' then some ([], .fold chars true)
    else if c == '\r' then some ([], .foldReturned chars)
    else none

/-- The tokens that one character completes and the mode behind it; `none` if it cannot stand
there. -/
def next (m : Mode) (c : Char) : Option (List Token × Mode) :=
  match m with
  | .idle => some (begin c)
  | .blank =>
    if c == ' ' || c == '\t' then some ([], .blank)
    else
      let (tokens, mode) := begin c
      some (.blank :: tokens, mode)
  | .word chars =>
    if isWordChar c then some ([], .word (c :: chars))
    else
      let (tokens, mode) := begin c
      some (.word chars.reverse :: tokens, mode)
  | .comment =>
    if c == '\n' then some ([.newline], .idle)
    else if c == '\r' then some ([], .returned)
    else if isPrintable c then some ([], .comment)
    else none
  | .returned => if c == '\n' then some ([.newline], .idle) else none
  | .opened q 1 => if c == q.char then some ([], .opened q 2) else inLine q [] c
  | .opened q _ =>
    if c == q.char then some ([], .block q [] 0 true)
    else
      let (tokens, mode) := begin c
      some (textOf false [] :: tokens, mode)
  | .line q chars => inLine q chars c
  | .block q chars 0 fresh => inBlock q chars fresh c
  | .block q chars quotes _ =>
    if c == q.char then
      if quotes == 4 then some ([textOf true (withQuotes q 2 chars)], .idle)
      else some ([], .block q chars (quotes + 1) false)
    else if 3 ≤ quotes then
      let (tokens, mode) := begin c
      some (textOf true (withQuotes q (quotes - 3) chars) :: tokens, mode)
    else inBlock q (withQuotes q quotes chars) false c
  | .blockReturned q chars fresh =>
    if c == '\n' then some ([], .block q (if fresh then chars else '\n' :: '\r' :: chars) 0 false)
    else none
  | .escape long chars => inEscape long chars c
  | .hex long chars left value =>
    match Text.hexDigit? c with
    | none => none
    | some v =>
      let value := value * 16 + v
      if left == 1 then
        if isScalar value then some ([], resume long (Char.ofNat value :: chars)) else none
      else some ([], .hex long chars (left - 1) value)
  | .fold chars seen =>
    if c == ' ' || c == '\t' then some ([], .fold chars seen)
    else if c == '\n' then some ([], .fold chars true)
    else if c == '\r' then some ([], .foldReturned chars)
    else if seen then inBlock .basic chars false c
    else none
  | .foldReturned chars => if c == '\n' then some ([], .fold chars true) else none

/-- The tokens completed by the end of the document. -/
def finish : Mode → Option (List Token)
  | .idle => some []
  | .blank => some [.blank]
  | .word chars => some [.word chars.reverse]
  | .comment => some []
  | .opened _ 2 => some [textOf false []]
  | .block q chars quotes _ =>
    if 3 ≤ quotes then some [textOf true (withQuotes q (quotes - 3) chars)] else none
  | _ => none

end Mode

/-- Scans the rest of a document; completed tokens are collected last first. -/
def scanFrom (m : Mode) (done : List Token) : List Char → Option (List Token)
  | [] => m.finish.map fun tokens => (tokens.reverse ++ done).reverse
  | c :: cs =>
    match m.next c with
    | some (tokens, m) => scanFrom m (tokens.reverse ++ done) cs
    | none => none

/-- The tokens of a document. -/
def scan (cs : List Char) : Option (List Token) := scanFrom .idle [] cs

end Steward.Toml
