import Steward.Query
import Steward.Supervisor.Outcome
import Steward.Supervisor.Runtime
import Steward.Update.Check

/-!
# Programs

A call to the supervisor takes many steps, and other calls may take theirs in between. A `Program` is
such a call as data: it is done, or it asks one thing and goes on with the answer. One `Request` is one
undivided step. Most are answered at once; the `await` requests and `nextEvent` wait until what they
name has happened.
-/

namespace Steward

inductive Request where
  /-- asks the world outside -/
  | query (q : Query)
  /-- starts a child; gives its number and process id -/
  | spawn (spec : LaunchSpec)
  | awaitPrompt (ticket : Nat)
  | awaitCommand (ticket : Nat)
  | beginStart
  | abortStart (reason : String)
  | register (handle : Supervisor.Handle) (definition : Definition)
  /-- begins a stop and signals the child, all in one step -/
  | stop
  | recordExit (pid : Nat) (exit : Exit)
  | readState
  | restartTarget
  | currentChild
  /-- kills the current child, if there is one -/
  | killCurrent
  | takeStreams
  | announceChange
  /-- starts the observer of a child -/
  | observe (child pid : Nat)
  | nextEvent (child : Nat)
  /-- tells everyone who waits for the child that its exit is dealt with -/
  | raiseExited (child : Nat)
  /-- the moment that lies so many milliseconds ahead -/
  | deadline (milliseconds : Nat)
  /-- waits for the child's exit up to a moment; tells whether it came -/
  | awaitExit (child moment : Nat)
  /-- starts an update check as a task of its own -/
  | spawnCheck
  /-- makes a task the current update check; gives the one before -/
  | swapCheck (task : Nat)
  | takeCheck
  | cancelCheck (task : Nat)
  | awaitCheck (task : Nat)
  deriving Repr, DecidableEq

namespace Request

/-- What became of a stop. -/
inductive StopResult where
  | notRunning
  | alreadyStopping
  | refused (refusal : Lifecycle.Refusal)
  | delivered
  | undelivered (failure : Failure)
  deriving Repr, DecidableEq

abbrev Answer : Request → Type
  | .query q => q.Answer
  | .spawn _ => Except Failure (Nat × Nat)
  | .awaitPrompt _ => Option String
  | .awaitCommand _ => Except Failure CommandOutput
  | .beginStart => Supervisor.StartGate
  | .abortStart _ => Unit
  | .register _ _ => Except Lifecycle.Refusal Unit
  | .stop => StopResult
  | .recordExit _ _ => Except Lifecycle.Refusal Lifecycle.Transition
  | .readState => Lifecycle.State
  | .restartTarget => Option Nat
  | .currentChild => Option Nat
  | .killCurrent => Unit
  | .takeStreams => Bool
  | .announceChange => Unit
  | .observe _ _ => Unit
  | .nextEvent _ => Option ChildEvent
  | .raiseExited _ => Unit
  | .deadline _ => Nat
  | .awaitExit _ _ => Bool
  | .spawnCheck => Nat
  | .swapCheck _ => Option Nat
  | .takeCheck => Option Nat
  | .cancelCheck _ => Unit
  | .awaitCheck _ => Option Update.Check

end Request

inductive Program (α : Type) where
  | done (a : α)
  | ask (r : Request) (k : r.Answer → Program α)

namespace Program

def bind {α β : Type} : Program α → (α → Program β) → Program β
  | .done a, f => f a
  | .ask r k, f => .ask r fun answer => (k answer).bind f

instance : Monad Program where
  pure := .done
  bind := bind

/-- Asks one thing. -/
def perform (r : Request) : Program r.Answer := .ask r .done

def query (q : Query) : Program q.Answer := perform (.query q)

def notify (notice : Notice) (text : String) : Program Unit := query (.notify notice text)

def write (writer : Writer) (level : OutputLog.Level) (text : String) : Program Unit :=
  query (.write writer level text)

/-- Asks the user and waits for the choice. -/
def prompt (severity : Severity) (text : String) (choices : List String) :
    Program (Option String) := do
  perform (.awaitPrompt (← query (.prompt severity text choices)))

/-- Runs a command to its end. -/
def command (program : String) (args : List String) : Program (Except Failure CommandOutput) := do
  perform (.awaitCommand (← query (.command program args)))

/-- One of two programs that run side by side. -/
inductive Side where
  | left
  | right
  deriving Repr, DecidableEq

/-- Two programs side by side. `turns` says which of the two takes the next step; when it is used up
the left one goes on to its end first. -/
def both {α β : Type} : List Side → Program α → Program β → Program (α × β)
  | .left :: turns, .ask r k, q => .ask r fun answer => both turns (k answer) q
  | .right :: turns, p, .ask r k => .ask r fun answer => both turns p (k answer)
  | _, p, q => p.bind fun a => q.bind fun b => .done (a, b)

end Program

end Steward
