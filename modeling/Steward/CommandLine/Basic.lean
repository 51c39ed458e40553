/-!
# Invocations

What the command line can ask for, and the ways in which it can fail to ask for anything.
-/

namespace Steward.CommandLine

inductive Command where
  | run (yes : Bool)
  | checkUpdate (yes : Bool)
  | locate
  | logs (lines : Option Nat)
  | config
  deriving Repr, DecidableEq

structure Invocation where
  verbose : Bool
  /-- the settings file to use in place of the usual one -/
  config : Option String
  command : Command
  deriving Repr, DecidableEq

/-- The names of the commands. -/
inductive Verb where
  | run
  | checkUpdate
  | locate
  | logs
  | config
  deriving Repr, DecidableEq

namespace Verb

def all : List Verb := [.run, .checkUpdate, .locate, .logs, .config]

def name : Verb → String
  | .run => "run"
  | .checkUpdate => "check-update"
  | .locate => "locate"
  | .logs => "logs"
  | .config => "config"

def ofName? (name : String) : Option Verb := all.find? fun v => v.name == name

end Verb

/-- The ways in which arguments can be no invocation. Help and version are among them. -/
inductive FaultKind where
  /-- an option is given twice -/
  | argumentConflict
  /-- a switch is given a value -/
  | tooManyValues
  | unknownArgument
  | invalidSubcommand
  /-- a value is missing or empty -/
  | invalidValue
  /-- a value cannot be read -/
  | valueValidation
  | missingSubcommand
  /-- nothing at all is given -/
  | nothingGiven
  | help
  | version
  deriving Repr, DecidableEq

/-- Why there is no invocation. -/
structure Fault where
  kind : FaultKind
  /-- the command whose arguments were being read -/
  verb : Option Verb := none
  /-- the argument at fault -/
  subject : String := ""
  /-- the value at fault -/
  value : String := ""
  deriving Repr, DecidableEq

namespace FaultKind

/-- The name under which a fault is reported to other programs. -/
def label : FaultKind → String
  | .argumentConflict => "ArgumentConflict"
  | .tooManyValues => "TooManyValues"
  | .unknownArgument => "UnknownArgument"
  | .invalidSubcommand => "InvalidSubcommand"
  | .invalidValue => "InvalidValue"
  | .valueValidation => "ValueValidation"
  | .missingSubcommand => "MissingSubcommand"
  | .nothingGiven => "DisplayHelpOnMissingArgumentOrSubcommand"
  | .help => "DisplayHelp"
  | .version => "DisplayVersion"

/-- Help and version were asked for; everything else is a mistake. -/
def exitCode : FaultKind → Nat
  | .help => 0
  | .version => 0
  | _ => 2

end FaultKind

end Steward.CommandLine
