import Steward.Json.Parser
import Steward.Json.Printer
import Steward.Record
import Steward.Text.Line
import Steward.Timestamp

/-!
# Entries of the output log

The output log holds one JSON object a line. Reading it back passes over every line that is no entry,
such as one whose writing was cut short.
-/

namespace Steward.OutputLog

/-- Where a line of the log came from. -/
inductive Level where
  | stdout
  | stderr
  | info
  | error
  deriving Repr, DecidableEq

namespace Level

def all : List Level := [.stdout, .stderr, .info, .error]

/-- The name in the file. -/
def name : Level → String
  | .stdout => "Stdout"
  | .stderr => "Stderr"
  | .info => "Info"
  | .error => "Error"

def display : Level → String
  | .stdout => "STDOUT"
  | .stderr => "STDERR"
  | .info => "INFO"
  | .error => "ERROR"

def ofName? (name : String) : Option Level := all.find? fun l => l.name == name

/-- A level is written by its name, or as an object with nothing under its name. -/
def ofDatum : Datum → Option Level
  | .text (some name) => ofName? name
  | .members [(some name, .null)] => ofName? name
  | _ => none

end Level

structure Entry where
  timestamp : Timestamp
  level : Level
  message : String
  deriving Repr, DecidableEq

namespace Entry

/-- The entry for a message; blanks around it are not kept. -/
def make (now : Timestamp) (level : Level) (message : String) : Entry :=
  ⟨now, level, Text.trimmed message⟩

def toJson (e : Entry) : Json.Value :=
  .ofMembers [("timestamp", .text e.timestamp.render), ("level", .text e.level.name),
    ("message", .text e.message)]

/-- The line of an entry, with its newline. -/
def render (e : Entry) : List Char := e.toJson.render ++ ['\n']

def timestamp? (d : Datum) : Option Timestamp := d.text?.bind fun s => Timestamp.parse s.toList

def ofDatum (d : Datum) : Option Entry := do
  match ← Field.ofDatum .refused ["timestamp", "level", "message"] d with
  | [timestamp, level, message] =>
    return ⟨← timestamp.required timestamp?, ← level.required Level.ofDatum,
      ← message.required Datum.text?⟩
  | _ => none

/-- The entry on a line; blanks around it do not count. -/
def parse (line : List Char) : Option Entry :=
  (Json.parse (Text.trim line)).bind fun v => ofDatum (.ofJson v)

/-- The line shown to people. -/
def display (e : Entry) : String := e.timestamp.display ++ " [" ++ e.level.display ++ "] " ++ e.message

end Entry

/-- The entries on a sequence of lines, up to the first line that is no text. -/
def ofLines : List Text.Line → Except Text.Utf8.Fault (List Entry)
  | [] => .ok []
  | line :: lines => do
    let text ← line.text
    let rest ← ofLines lines
    return (Entry.parse text).toList ++ rest

/-- The last `max` of a list. -/
def keepLast {α : Type} (max : Option Nat) (items : List α) : List α :=
  match max with
  | some n => items.drop (items.length - n)
  | none => items

/-- The entries in a file, at most the last `max` of them. -/
def ofBytes (bytes : Text.Utf8.Bytes) (max : Option Nat) : Except Text.Utf8.Fault (List Entry) := do
  return keepLast max (← ofLines (Text.Line.ofBytes bytes))

/-- What the log command shows. -/
def display : List Entry → String
  | [] => "No log entries"
  | entries => "\n".intercalate (entries.map Entry.display)

end Steward.OutputLog
