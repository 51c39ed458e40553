import Steward.Choice
import Steward.Query
import Steward.Text.Line

/-!
# The terminal

Messages go to the two output streams. Lines of input are commands, except that a line that comes while
a prompt waits is the answer to it. Only the latest prompt waits: a new one dismisses the one before.
When the input ends, the waiting prompt is dismissed and so is every later one.
-/

namespace Steward

namespace Terminal

/-- What became of a prompt. -/
inductive Prompt where
  | waiting (choices : List String)
  | ended (choice : Option String)
  /-- its caller has given up -/
  | dropped
  deriving Repr, DecidableEq

/-- The prompt ends, unless it has ended before. -/
def Prompt.finish (choice : List String → Option String) : Prompt → Prompt
  | .waiting choices => .ended (choice choices)
  | p => p

def Prompt.drop : Prompt → Prompt
  | .waiting _ => .dropped
  | p => p

end Terminal

structure Terminal where
  /-- every prompt is answered at once by its first choice -/
  assumeYes : Bool := false
  prompts : List Terminal.Prompt := []
  /-- the prompt that gets the next line -/
  pending : Option Nat := none
  /-- the input has ended -/
  closed : Bool := false
  /-- bytes of a line that is not complete yet -/
  partialLine : Text.Utf8.Bytes := []
  /-- whether anyone takes commands -/
  hasReceiver : Bool := true
  /-- commands that nobody has taken yet -/
  commands : List String := []
  /-- lines of output, earliest first -/
  stdout : List String := []
  stderr : List String := []
  deriving Repr, DecidableEq

namespace Terminal

/-! ## Output -/

/-- The lines that printing a text makes. -/
def textLines (text : String) : List String := (Text.splitAll '\n' text.toList).map String.ofList

def print (t : Terminal) (text : String) : Terminal :=
  { t with stdout := t.stdout ++ textLines text }

def printError (t : Terminal) (text : String) : Terminal :=
  { t with stderr := t.stderr ++ textLines text }

def notify (t : Terminal) : Notice → String → Terminal
  | .info, text => t.print text
  | .warning, text => t.printError ("Warning: " ++ text)
  | .error, text => t.printError ("Error: " ++ text)

/-! ## Prompts -/

def changePrompt (t : Terminal) (ticket : Nat) (f : Prompt → Prompt) : Terminal :=
  { t with prompts := t.prompts.modify ticket f }

/-- Nobody will answer the prompt that waits. -/
def dismissPending (t : Terminal) : Terminal :=
  match t.pending with
  | some ticket => { t.changePrompt ticket (·.finish fun _ => none) with pending := none }
  | none => t

/-- Opens a prompt; gives the number under which its answer can be asked for. -/
def openPrompt (t : Terminal) (severity : Severity) (text : String) (choices : List String) :
    Nat × Terminal :=
  let ticket := t.prompts.length
  let heading := "[" ++ severity.display ++ "] " ++ text
  if t.assumeYes then
    (ticket, { t.print (heading ++ " -> " ++ choices.head?.getD "-") with
      prompts := t.prompts ++ [.ended choices.head?] })
  else if t.closed then (ticket, { t with prompts := t.prompts ++ [.ended none] })
  else
    let t := t.dismissPending
    (ticket, { (t.print heading).print (Choice.menu choices) with
      prompts := t.prompts ++ [.waiting choices], pending := some ticket })

/-- The answer to a prompt, once it has ended. -/
def reply? (t : Terminal) (ticket : Nat) : Option (Option String) :=
  match t.prompts[ticket]? with
  | some (.ended choice) => some choice
  | _ => none

/-- The caller of a prompt gives up. -/
def dropPrompt (t : Terminal) (ticket : Nat) : Terminal := t.changePrompt ticket (·.drop)

/-! ## Input -/

/-- Takes a line for the waiting prompt, or gives it back. -/
def route (t : Terminal) (line : String) : Option String × Terminal :=
  match t.pending with
  | none => (some line, t)
  | some ticket =>
    let free := { t with pending := none }
    match t.prompts[ticket]? with
    | some (.waiting _) => (none, free.changePrompt ticket (·.finish (Choice.pick line)))
    | _ => (some line, free)

/-- The input ends. -/
def closeInput (t : Terminal) : Terminal :=
  { t.dismissPending with closed := true, partialLine := [] }

/-- Takes one line of input; one that nobody wants ends the input. -/
def takeLine (t : Terminal) (line : List Char) : Terminal :=
  match t.route (String.ofList line) with
  | (none, t) => t
  | (some command, t) =>
    if t.hasReceiver then { t with commands := t.commands ++ [command] } else t.closeInput

/-- Takes the lines of the input. One that is no text ends it; one that is not complete is kept. -/
def takeLines (t : Terminal) (atEnd : Bool) : List Text.Line → Terminal
  | [] => t
  | line :: lines =>
    if t.closed then t
    else if !line.closed && !atEnd then { t with partialLine := line.bytes }
    else
      match line.text with
      | .ok text => (t.takeLine text).takeLines atEnd lines
      | .error _ => t.closeInput

/-- Bytes come in. -/
def type (t : Terminal) (bytes : Text.Utf8.Bytes) : Terminal :=
  if t.closed then t
  else { t with partialLine := [] }.takeLines false (Text.Line.ofBytes (t.partialLine ++ bytes))

/-- No more bytes come in; an incomplete last line still counts. -/
def endInput (t : Terminal) : Terminal :=
  if t.closed then t else (t.takeLines true (Text.Line.ofBytes t.partialLine)).closeInput

end Terminal

end Steward
