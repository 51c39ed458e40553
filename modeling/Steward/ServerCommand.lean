import Steward.Failure
import Steward.Text.Case
import Steward.Text.Blank

/-!
# Commands to the server

The host offers three commands, each under a bare name and under an identifier that has the name of
the server in front.
-/

namespace Steward

/-- The name under which the server is published. -/
def defaultServerName : String := "go-mcp-server"

inductive ServerCommand where
  | start
  | stop
  | restart
  deriving Repr, DecidableEq

namespace ServerCommand

def all : List ServerCommand := [.start, .stop, .restart]

def display : ServerCommand → String
  | .start => "start"
  | .stop => "stop"
  | .restart => "restart"

/-- What stands in front of a name in an identifier. -/
def idStart : String := defaultServerName ++ "."

def id (c : ServerCommand) : String := idStart ++ c.display

/-- A text that names no command; `word` is what was compared with the names. -/
structure Unknown where
  word : String
  deriving Repr, DecidableEq

def Unknown.failure (u : Unknown) : Failure :=
  let word := u.word
  .host s!"Unknown command '{word}'"

/-- The command with exactly that name. -/
def ofName? (name : List Char) : Option ServerCommand :=
  all.find? fun c => c.display.toList == name

/-- Reads a name or an identifier; case and blanks around it do not count. -/
def parse (s : String) : Except Unknown ServerCommand :=
  let lowered := Text.lower (Text.trim s.toList)
  let name := (Text.dropFront idStart.toList lowered).getD lowered
  match ofName? name with
  | some c => .ok c
  | none => .error ⟨String.ofList name⟩

end ServerCommand

end Steward
