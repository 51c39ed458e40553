import Steward.Config.Basic
import Steward.Definition
import Steward.Exit
import Steward.Failure
import Steward.OutputLog.Entry
import Steward.Tool.Installation
import Steward.Version.Published

/-!
# What is asked of the world outside

Everything the supervisor does beyond its own state is a `Query`: it looks for the tool, reads options,
starts and signals processes, talks to the user, runs commands, asks the repository and writes output.
`Query.Answer` is the type of what comes back. Two queries only begin something and are answered by a
ticket: the user's reply and a command's result are waited for under it.
-/

namespace Steward

/-- How a message is shown. -/
inductive Notice where
  | info
  | warning
  | error
  deriving Repr, DecidableEq

/-- How a question is shown. -/
inductive Severity where
  | info
  | warning
  deriving Repr, DecidableEq

def Severity.display : Severity → String
  | .info => "INFO"
  | .warning => "WARNING"

/-- What to launch, and how its standard streams are used. -/
structure LaunchSpec where
  program : String
  args : List String
  transport : Transport
  deriving Repr, DecidableEq

/-- What a finished command left behind; a command ended by a signal has no exit code. -/
structure CommandOutput where
  exitCode : Option Int := some 0
  stdout : String := ""
  stderr : String := ""
  deriving Repr, DecidableEq

def CommandOutput.success (o : CommandOutput) : Bool := o.exitCode == some 0

/-- Who writes to the output log. -/
inductive Writer where
  | server
  | extension
  deriving Repr, DecidableEq

/-- What became of a signal: whether it was delivered, and the exit that the child reports at once. -/
structure Delivery where
  result : Except Failure Unit
  exit : Option Exit := none

inductive Query where
  | locate
  | readOptions
  | negotiatePort (preferred : Nat)
  | spawn (spec : LaunchSpec)
  | terminate (child pid : Nat)
  | kill (child pid : Nat)
  | notify (notice : Notice) (text : String)
  | prompt (severity : Severity) (text : String) (choices : List String)
  | progressStarted (title : String)
  | progressFinished (title : String)
  | command (program : String) (args : List String)
  | tipCommit
  | tags
  | write (writer : Writer) (level : OutputLog.Level) (text : String)
  | closeOutput
  /-- whether the host installs tools by itself, and how that went -/
  | hostInstall (prompted : Bool)
  deriving Repr, DecidableEq

namespace Query

abbrev Answer : Query → Type
  | .locate => Option String
  | .readOptions => Except Failure ServerOptions
  | .negotiatePort _ => Except Failure Nat
  | .spawn _ => Except Failure Nat
  | .terminate _ _ => Delivery
  | .kill _ _ => Delivery
  | .notify _ _ => Unit
  | .prompt _ _ _ => Nat
  | .progressStarted _ => Unit
  | .progressFinished _ => Unit
  | .command _ _ => Nat
  | .tipCommit => Except Failure String
  | .tags => Except Failure (List Version.Tag)
  | .write _ _ _ => Unit
  | .closeOutput => Unit
  | .hostInstall _ => Option Tool.InstallOutcome

end Query

/-- What a running process tells, in the order in which it happened. -/
inductive ChildEvent where
  | stdout (line : String)
  | stderr (line : String)
  | error (reason : String)
  | exited (exit : Exit)
  deriving Repr, DecidableEq

end Steward
