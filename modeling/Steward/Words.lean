/-!
# Splitting a command line into words

Words are set apart by spaces, tabs and newlines. Quotes keep blanks inside a word, a backslash takes
the meaning from the next character, and a `#` that begins a word starts a comment up to the end of
the line. A backslash in front of a newline stands for nothing.
-/

namespace Steward.Words

/-- Where the splitter stands; the characters of a word are kept last first. -/
inductive Mode where
  | between
  | comment
  | word (chars : List Char)
  | escape (chars : List Char)
  | single (chars : List Char)
  | double (chars : List Char)
  | doubleEscape (chars : List Char)
  deriving Repr, DecidableEq

def isSeparator (c : Char) : Bool := c == ' ' || c == '\t' || c == '\n'

/-- One character inside a word, outside of quotes; `none` if the word ends before it. -/
def inWord (chars : List Char) (c : Char) : Option Mode :=
  if isSeparator c then none
  else if c == '"' then some (.double chars)
  else if c == '\'' then some (.single chars)
  else if c == '\\' then some (.escape chars)
  else some (.word (c :: chars))

/-- The word that one character completes, if any, and the mode behind it. -/
def Mode.next (m : Mode) (c : Char) : Option String × Mode :=
  match m with
  | .between => if c == '#' then (none, .comment) else (none, (inWord [] c).getD .between)
  | .comment => (none, if c == '\n' then .between else .comment)
  | .word chars =>
    match inWord chars c with
    | some m => (none, m)
    | none => (some (String.ofList chars.reverse), .between)
  | .escape chars => (none, .word (if c == '\n' then chars else c :: chars))
  | .single chars => (none, if c == '\'' then .word chars else .single (c :: chars))
  | .double chars =>
    (none,
      if c == '"' then .word chars
      else if c == '\\' then .doubleEscape chars
      else .double (c :: chars))
  | .doubleEscape chars =>
    (none,
      .double
        (if c == '\n' then chars
        else if c == '$' || c == '\x60' || c == '"' || c == '\\' then c :: chars
        else c :: '\\' :: chars))

/-- The words from a mode on; `none` if the text ends inside quotes or behind a backslash. -/
def splitFrom (m : Mode) : List Char → Option (List String)
  | [] =>
    match m with
    | .between => some []
    | .comment => some []
    | .word chars => some [String.ofList chars.reverse]
    | _ => none
  | c :: cs =>
    match m.next c with
    | (some word, m) => (splitFrom m cs).map (word :: ·)
    | (none, m) => splitFrom m cs

/-- The words of a command line. -/
def split (s : String) : Option (List String) := splitFrom .between s.toList

end Steward.Words
