/-!
# Shell scripts

The part of the shell's language that scripts of tools and servers are written in. A word is made of
pieces, of which some stand for themselves and some are replaced when the word is used; a script is a
tree of commands.
-/

namespace Steward.Shell

/-- What is taken of a parameter. -/
inductive Form where
  | whole
  | length
  /-- the word in place of a parameter that is not set, or is empty if that counts too -/
  | otherwise (orEmpty : Bool) (word : String)
  /-- the word in place of a parameter that is set, and not empty if that counts too -/
  | instead (orEmpty : Bool) (word : String)
  /-- without the shortest or longest part at the front that fits the pattern -/
  | withoutFront (longest : Bool) (pattern : String)
  /-- the same at the end -/
  | withoutEnd (longest : Bool) (pattern : String)
  deriving Repr, DecidableEq

/-- A part of a word. What is quoted is not split into fields. -/
inductive Piece where
  | literal (text : String) (quoted : Bool)
  | parameter (name : String) (form : Form) (quoted : Bool)
  | arithmetic (expression : String) (quoted : Bool)
  /-- the output of a script -/
  | substitution (script : String) (quoted : Bool)
  /-- the output of a script that has ended -/
  | value (text : String) (quoted : Bool)
  deriving Repr, DecidableEq

abbrev Word := List Piece

namespace Word

/-- The text of a word that has neither quotes nor anything to replace. -/
def bare? : Word → Option String
  | [] => none
  | [.literal text false] => some text
  | _ => none

end Word

inductive Direction where
  | read
  | write
  | append
  /-- the target is the number of a descriptor, or a dash -/
  | duplicate
  deriving Repr, DecidableEq

structure Redirect where
  descriptor : Nat
  direction : Direction
  target : Word
  deriving Repr, DecidableEq

/-- A command without structure. -/
structure Simple where
  line : Nat
  assignments : List (String × Word) := []
  words : List Word := []
  redirects : List Redirect := []
  deriving Repr, DecidableEq

inductive Script where
  | skip
  | simple (command : Simple)
  | sequence (first second : Script)
  /-- the second only if the first succeeds -/
  | both (first second : Script)
  /-- the second only if the first fails -/
  | either (first second : Script)
  | negate (body : Script)
  | background (body : Script)
  /-- the output of the first is the input of the second -/
  | pipe (first second : Script)
  | redirected (line : Nat) (body : Script) (redirects : List Redirect)
  | subshell (body : Script)
  | branch (condition yes no : Script)
  /-- again as long as the condition succeeds, or fails -/
  | loop (untilSuccess : Bool) (condition body : Script)
  /-- once for each field of the words, or for each argument -/
  | each (name : String) (words : Option (List Word)) (body : Script)
  /-- the body if the word fits one of the patterns, else the rest -/
  | arm (word : Word) (patterns : List Word) (body rest : Script)
  | define (name : String) (body : Script)
  deriving Repr, DecidableEq

/-! ## Output of scripts in words -/

namespace Piece

def substitution? : Piece → Option String
  | .substitution script _ => some script
  | _ => none

/-- Puts a value in the place of a substitution. -/
def fill (value : String) : Piece → Piece
  | .substitution _ quoted => .value value quoted
  | p => p

end Piece

namespace Word

/-- The first script whose output the word needs. -/
def substitution? (w : Word) : Option String := w.findSome? Piece.substitution?

/-- Puts a value in the place of the first substitution. -/
def fill (value : String) : Word → Word
  | [] => []
  | p :: ps => if p.substitution?.isSome then p.fill value :: ps else p :: fill value ps

end Word

/-- Puts a value in the place of the first substitution in a list of words. -/
def fillFirst {α : Type} (word : α → Word) (put : α → Word → α) (value : String) : List α → List α
  | [] => []
  | a :: as =>
    if (word a).substitution?.isSome then put a ((word a).fill value) :: as
    else a :: fillFirst word put value as

namespace Simple

def substitution? (s : Simple) : Option String :=
  ((s.words.findSome? Word.substitution?).orElse fun _ =>
    s.assignments.findSome? fun a => Word.substitution? a.2).orElse fun _ =>
      s.redirects.findSome? fun r => Word.substitution? r.target

def fill (value : String) (s : Simple) : Simple :=
  if s.words.any (·.substitution?.isSome) then
    { s with words := fillFirst id (fun _ w => w) value s.words }
  else if s.assignments.any (·.2.substitution?.isSome) then
    { s with assignments := fillFirst (·.2) (fun a w => (a.1, w)) value s.assignments }
  else { s with redirects := fillFirst (·.target) ({ · with target := · }) value s.redirects }

end Simple

namespace Script

/-- The first script whose output is needed before this one can begin. -/
def substitution? : Script → Option String
  | .simple s => s.substitution?
  | .each _ (some words) _ => words.findSome? Word.substitution?
  | .arm word _ _ _ => word.substitution?
  | .redirected _ _ redirects => redirects.findSome? fun r => r.target.substitution?
  | _ => none

def fill (value : String) : Script → Script
  | .simple s => .simple (s.fill value)
  | .each name (some words) body => .each name (some (fillFirst id (fun _ w => w) value words)) body
  | .arm word patterns body rest => .arm (word.fill value) patterns body rest
  | .redirected line body redirects =>
    .redirected line body (fillFirst (·.target) ({ · with target := · }) value redirects)
  | s => s

end Script

end Steward.Shell
