import Steward.Shell.Arithmetic
import Steward.Shell.Pattern
import Steward.Shell.Syntax
import Steward.Text.Numeral
import Steward.Variables

/-!
# Expanding words

Parameters and arithmetic are replaced by their values. What comes from them outside of quotes is split
into fields at blanks, and an empty value outside of quotes makes no field. The scripts inside a word
have run before, so that their outputs are in place.
-/

namespace Steward.Shell

/-- What parameters stand for. -/
structure Scope where
  /-- the name of the script -/
  name : String
  arguments : List String := []
  environ : Variables := {}
  /-- the exit code of the last command -/
  status : Nat := 0
  /-- the process id of the shell itself -/
  pid : Nat
  /-- the last process in the background -/
  background : Option Nat := none
  deriving Repr, DecidableEq

namespace Scope

/-- The value of a parameter; `none` if it is not set. -/
def parameter? (s : Scope) (name : String) : Option String :=
  match name with
  | "#" => some (toString s.arguments.length)
  | "?" => some (toString s.status)
  | "$" => some (toString s.pid)
  | "!" => s.background.map toString
  | "-" => some ""
  | "0" => some s.name
  | "@" => some (" ".intercalate s.arguments)
  | "*" => some (" ".intercalate s.arguments)
  | _ =>
    match Text.decimal? name.toList with
    | some n => s.arguments[n - 1]?
    | none => s.environ.get? name

/-- The number that a name stands for in an expression. -/
def number (s : Scope) (name : String) : Int :=
  match ((s.parameter? name).getD "").toList with
  | '-' :: digits => -(((Text.decimal? digits).getD 0 : Nat) : Int)
  | digits => (((Text.decimal? digits).getD 0 : Nat) : Int)

/-- What is taken of a parameter. -/
def parameter (s : Scope) (name : String) : Form → String
  | .whole => (s.parameter? name).getD ""
  | .length => toString ((s.parameter? name).getD "").utf8ByteSize
  | .otherwise orEmpty word =>
    match s.parameter? name with
    | some value => if orEmpty && value.isEmpty then word else value
    | none => word
  | .instead orEmpty word =>
    match s.parameter? name with
    | some value => if orEmpty && value.isEmpty then "" else word
    | none => ""
  | .withoutFront longest pattern =>
    String.ofList ((Pattern.ofText pattern.toList).dropFront longest
      ((s.parameter? name).getD "").toList)
  | .withoutEnd longest pattern =>
    String.ofList ((Pattern.ofText pattern.toList).dropEnd longest
      ((s.parameter? name).getD "").toList)

def arithmetic (s : Scope) (expression : String) : Except String String :=
  match Arithmetic.evaluate s.number expression with
  | some n => .ok (toString n)
  | none => .error ("arithmetic expression: expecting primary: \"" ++ expression ++ "\"")

end Scope

/-! ## Fields -/

/-- Fields in the making. -/
structure Fields where
  /-- those that are complete, last first -/
  complete : List String := []
  /-- the one that is being made, its characters last first -/
  current : Option (List Char) := none
  deriving Repr, DecidableEq

namespace Fields

/-- Puts text into the current field, which begins if there is none. -/
def add (f : Fields) (cs : List Char) : Fields :=
  { f with current := some (cs.reverse ++ f.current.getD []) }

/-- Ends the current field. -/
def close (f : Fields) : Fields :=
  match f.current with
  | some cs => { complete := String.ofList cs.reverse :: f.complete, current := none }
  | none => f

def isSeparator (c : Char) : Bool := c == ' ' || c == '\t' || c == '\n'

/-- Puts in text that is split at blanks. -/
def addSplit (f : Fields) (cs : List Char) : Fields :=
  cs.foldl (fun f c => if isSeparator c then f.close else f.add [c]) f

def addValue (f : Fields) (text : String) (quoted : Bool) : Fields :=
  if quoted then f.add text.toList else f.addSplit text.toList

/-- Puts in each argument as a field of its own. -/
def addArguments (f : Fields) (quoted : Bool) : List String → Fields
  | [] => f
  | [a] => f.addValue a quoted
  | a :: as => (f.addValue a quoted).close.addArguments quoted as

/-- The fields, first to last. -/
def toList (f : Fields) : List String := f.close.complete.reverse

end Fields

/-- Adds one piece to the fields. -/
def Piece.expand (s : Scope) (f : Fields) : Piece → Except String Fields
  | .literal text _ => .ok (f.add text.toList)
  | .value text quoted => .ok (f.addValue text quoted)
  | .parameter "@" .whole quoted => .ok (f.addArguments quoted s.arguments)
  | .parameter "*" .whole false => .ok (f.addArguments false s.arguments)
  | .parameter name form quoted => .ok (f.addValue (s.parameter name form) quoted)
  | .arithmetic expression quoted => do return f.addValue (← s.arithmetic expression) quoted
  | .substitution _ _ => .ok f

/-- A tilde in front stands for the home directory. -/
def Word.atHome (s : Scope) : Word → Word
  | .literal text false :: ps =>
    match text.toList, s.environ.get? "HOME" with
    | ['~'], some home => if ps.isEmpty then [.literal home true] else .literal text false :: ps
    | '~' :: '/' :: rest, some home =>
      .literal (home ++ "/") true :: .literal (String.ofList rest) false :: ps
    | _, _ => .literal text false :: ps
  | ps => ps

/-- The fields of a word. -/
def Word.fields (s : Scope) (w : Word) : Except String (List String) := do
  let f ← (w.atHome s).foldlM (fun f p => p.expand s f) ({} : Fields)
  return f.toList

/-- The fields of some words. -/
def expandWords (s : Scope) (ws : List Word) : Except String (List String) := do
  return (← ws.mapM (Word.fields s)).flatten

/-- The text of one piece where nothing is split. -/
def Piece.text (s : Scope) : Piece → Except String String
  | .literal text _ => .ok text
  | .value text _ => .ok text
  | .parameter name form _ => .ok (s.parameter name form)
  | .arithmetic expression _ => s.arithmetic expression
  | .substitution _ _ => .ok ""

def Piece.isQuoted : Piece → Bool
  | .literal _ q => q
  | .value _ q => q
  | .parameter _ _ q => q
  | .arithmetic _ q => q
  | .substitution _ q => q

/-- The text of a word where nothing is split. -/
def Word.text (s : Scope) (w : Word) : Except String String := do
  return String.join (← (w.atHome s).mapM (Piece.text s))

/-- The pattern that a word is; what is quoted in it stands for itself. -/
def Word.pattern (s : Scope) (w : Word) : Except String Pattern := do
  let marks ← w.mapM fun p => do
    let cs := (← p.text s).toList
    return if p.isQuoted then Pattern.exactText cs else Pattern.ofText cs
  return marks.flatten

end Steward.Shell
