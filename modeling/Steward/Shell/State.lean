import Steward.Machine.Signal
import Steward.Shell.Expansion

/-!
# A shell at work

A shell is in the middle of a script: `control` is what it does now and `stack` what is still to be
done behind it, innermost first. Every step looks at these two only.
-/

namespace Steward

namespace Shell

/-- Where the bytes of a descriptor come from or go to. -/
inductive Channel where
  | nowhere
  | readEnd (pipe : Nat)
  | writeEnd (pipe : Nat)
  | file (place : List String)
  deriving Repr, DecidableEq

/-- The channels of a process under the numbers of their descriptors. -/
abbrev Channels := List (Nat × Channel)

/-- What a shell waits for. -/
inductive Waiting where
  /-- commands that it has started, of which the last one gives the exit code -/
  | foreground
  /-- a process in the background; a signal ends the wait -/
  | background
  /-- all of them -/
  | everything
  deriving Repr, DecidableEq

inductive Control where
  /-- begins a script; `last` if nothing follows it -/
  | run (script : Script) (last : Bool)
  /-- a command has ended with an exit code -/
  | status (code : Nat)
  | await (pids : List Nat) (why : Waiting)
  /-- waits for the output that a script needs -/
  | collect (pipe pid : Nat) (script : Script) (last : Bool)
  /-- waits for a line of input -/
  | readLine (names : List String)
  deriving Repr, DecidableEq

inductive Frame where
  | next (rest : Script) (last : Bool)
  | ifSuccess (rest : Script) (last : Bool)
  | ifFailure (rest : Script) (last : Bool)
  | negate
  | branch (yes no : Script) (last : Bool)
  /-- the condition of a loop is being tried; `code` is from the last round -/
  | condition (untilSuccess : Bool) (condition body : Script) (code : Nat)
  /-- the body of a loop is being run -/
  | body (untilSuccess : Bool) (condition body : Script)
  | each (name : String) (rest : List String) (body : Script)
  | restore (channels : Channels)
  /-- a function is being run; these are the arguments outside -/
  | call (arguments : List String)
  /-- a trap is being run; behind it the exit code is what it was and this goes on -/
  | resume (control : Option (Script × Bool)) (code : Nat)
  /-- the script has ended and the trap for that is being run -/
  | leave (code : Nat)
  deriving Repr, DecidableEq

end Shell

structure Shell where
  scope : Shell.Scope
  control : Shell.Control
  stack : List Shell.Frame := []
  /-- names of the variables that programs get -/
  exported : List String := []
  functions : List (String × Shell.Script) := []
  /-- what to do at a signal, or at the end -/
  traps : List (Option Signal × String) := []
  /-- whether a command that fails ends the script -/
  strict : Bool := false
  /-- whether the last failure has been tested for, so that it ends nothing -/
  excused : Bool := false
  deriving Repr, DecidableEq

namespace Shell

/-- The shell that is about to run a script. -/
def start (scope : Scope) (script : Script) (last : Bool) : Shell :=
  { scope := scope
    control := .run script last
    exported := scope.environ.entries.map (·.1) }

def setVariable (sh : Shell) (name value : String) : Shell :=
  { sh with scope := { sh.scope with environ := sh.scope.environ.set name (some value) } }

/-- The variables that programs get. -/
def environment (sh : Shell) : Variables :=
  ⟨sh.scope.environ.entries.filter fun (name, _) => sh.exported.contains name⟩

/-- The script for a signal; an empty one means that the signal is ignored. -/
def trap? (sh : Shell) (s : Option Signal) : Option String := sh.traps.lookup s

def hasTraps (sh : Shell) : Bool := sh.traps.any (!·.2.isEmpty)

/-- The same shell in a process of its own: traps are not inherited, except for what is ignored. -/
def fork (sh : Shell) (script : Script) : Shell :=
  { sh with
    control := .run script true
    stack := []
    traps := sh.traps.filter (·.2.isEmpty) }

/-- Whether the outcome of the current command decides what is done next. -/
def isTested (sh : Shell) : Bool :=
  sh.stack.any fun
    | .ifSuccess .. => true
    | .ifFailure .. => true
    | .negate => true
    | .branch .. => true
    | .condition .. => true
    | _ => false

/-- Whether a failure of the current command ends the script. -/
def stopsAt (sh : Shell) (code : Nat) : Bool :=
  sh.strict && code != 0 && !sh.excused && !sh.isTested

/-- Ends the current command. -/
def done (sh : Shell) (code : Nat) : Shell := { sh with control := .status code }

end Shell

end Steward
