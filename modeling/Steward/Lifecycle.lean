import Steward.Definition
import Steward.Exit
import Steward.Failure

/-!
# The life of a server

A server is stopped, starting, running or stopping. `State.next` is the whole table of allowed
changes; an event that the table does not list is refused and changes nothing, except that the exit of
a process other than the current one is passed over in silence.
-/

namespace Steward.Lifecycle

inductive State where
  | stopped
  | starting
  | running (pid : Nat) (definition : Definition)
  | stopping (pid : Nat) (definition : Definition)
  deriving Repr, DecidableEq

namespace State

def pid? : State → Option Nat
  | .running pid _ => some pid
  | .stopping pid _ => some pid
  | _ => none

def definition? : State → Option Definition
  | .running _ d => some d
  | .stopping _ d => some d
  | _ => none

def isRunning : State → Bool
  | .running .. => true
  | _ => false

def isStopped : State → Bool
  | .stopped => true
  | _ => false

def label : State → String
  | .stopped => "stopped"
  | .starting => "starting"
  | .running .. => "running"
  | .stopping .. => "stopping"

def display : State → String
  | .running pid d => s!"running (pid {pid}): " ++ d.display
  | .stopping pid _ => s!"stopping (pid {pid})"
  | s => s.label

/-- What the status command shows. -/
def status : State → String
  | .running pid d => s!"Server: running (pid {pid})\n" ++ d.summary
  | .stopping pid _ => s!"Server: stopping (pid {pid})"
  | .starting => "Server: starting"
  | .stopped => "Server: stopped"

end State

inductive Event where
  | startRequested
  | startAborted (reason : String)
  | processSpawned (pid : Nat) (definition : Definition)
  | stopRequested
  | stopFailed (reason : String)
  | processExited (pid : Nat) (exit : Exit)
  deriving Repr, DecidableEq

def Event.display : Event → String
  | .startRequested => "Start requested"
  | .startAborted reason => s!"Start aborted: {reason}"
  | .processSpawned pid _ => s!"Process spawned with PID {pid}"
  | .stopRequested => "Stop requested"
  | .stopFailed reason => s!"Stop failed: {reason}"
  | .processExited pid exit => s!"Process {pid} exited with " ++ exit.display

/-- What a change of state asks its owner to do. -/
inductive Effect where
  | storeHandle (pid : Nat)
  | clearHandle
  | definitionChanged
  deriving Repr, DecidableEq

def Effect.display : Effect → String
  | .storeHandle pid => s!"StoreHandle({pid})"
  | .clearHandle => "ClearHandle"
  | .definitionChanged => "DefinitionChanged"

def Event.effects : Event → List Effect
  | .processSpawned pid _ => [.storeHandle pid, .definitionChanged]
  | .processExited .. => [.clearHandle, .definitionChanged]
  | _ => []

/-- Where an event leads. -/
inductive Verdict where
  | moved (target : State)
  /-- the event concerns some other process -/
  | ignored
  /-- the table has no such change -/
  | refused
  deriving Repr, DecidableEq

/-- The table of changes. -/
def State.next : State → Event → Verdict
  | .stopped, .startRequested => .moved .starting
  | .starting, .startAborted _ => .moved .stopped
  | .starting, .processSpawned pid d => .moved (.running pid d)
  | .running pid d, .stopRequested => .moved (.stopping pid d)
  | .stopping pid d, .stopFailed _ => .moved (.running pid d)
  | .running pid _, .processExited exited _ => if pid = exited then .moved .stopped else .ignored
  | .stopping pid _, .processExited exited _ => if pid = exited then .moved .stopped else .ignored
  | _, .processExited .. => .ignored
  | _, _ => .refused

/-- What became of an accepted event. -/
structure Transition where
  changed : Bool
  old : State
  new : State
  effects : List Effect
  deriving Repr, DecidableEq

/-- The refusal of an event in a state. -/
structure Refusal where
  state : State
  event : Event
  deriving Repr, DecidableEq

def Refusal.failure (r : Refusal) : Failure :=
  .process ("No valid state transition from " ++ r.state.label ++ " for event: " ++ r.event.display)

/-- Applies one event. -/
def apply (s : State) (e : Event) : Except Refusal Transition :=
  match s.next e with
  | .moved target => .ok ⟨true, s, target, e.effects⟩
  | .ignored => .ok ⟨false, s, s, []⟩
  | .refused => .error ⟨s, e⟩

/-- The state behind an event, whether it was accepted or not. -/
def after (s : State) (e : Event) : State :=
  match apply s e with
  | .ok t => t.new
  | .error _ => s

/-- Every event of a sequence with what became of it and the state behind it. -/
def trace (s : State) : List Event → List (Event × Except Refusal Transition × State)
  | [] => []
  | e :: es => (e, apply s e, after s e) :: trace (after s e) es

end Steward.Lifecycle
