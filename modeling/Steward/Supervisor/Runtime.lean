import Steward.Lifecycle

/-!
# What the supervisor keeps

The state of the server and the handle of the current child. Every function here is one undivided
change of both; nothing else happens between its beginning and its end.
-/

namespace Steward.Supervisor

open Steward.Lifecycle (State Event)

/-- The current child. -/
structure Handle where
  child : Nat
  pid : Nat
  /-- whether the child's standard streams are still to be handed out -/
  streams : Bool
  deriving Repr, DecidableEq

structure Runtime where
  state : State := .stopped
  handle : Option Handle := none
  deriving Repr, DecidableEq

/-- What a start finds. -/
inductive StartGate where
  | running (definition : Definition)
  | busy
  | refused (refusal : Lifecycle.Refusal)
  | open
  deriving Repr, DecidableEq

/-- What a stop finds. -/
inductive StopGate where
  | notRunning
  | alreadyStopping
  | refused (refusal : Lifecycle.Refusal)
  /-- the child that has to be signalled now -/
  | open (handle : Option Handle)
  deriving Repr, DecidableEq

namespace Runtime

/-- Begins a start, if the server is stopped. -/
def beginStart (r : Runtime) : StartGate × Runtime :=
  match r.state with
  | .running _ d => (.running d, r)
  | .starting => (.busy, r)
  | .stopping .. => (.busy, r)
  | .stopped =>
    match Lifecycle.apply r.state .startRequested with
    | .ok t => (.open, { r with state := t.new })
    | .error e => (.refused e, r)

/-- Gives up a start. -/
def abortStart (r : Runtime) (reason : String) : Runtime :=
  { r with state := Lifecycle.after r.state (.startAborted reason) }

/-- Takes in the child of a start. -/
def register (r : Runtime) (handle : Handle) (definition : Definition) :
    Except Lifecycle.Refusal Runtime :=
  match Lifecycle.apply r.state (.processSpawned handle.pid definition) with
  | .ok t =>
    .ok ⟨t.new, if t.effects.contains (.storeHandle handle.pid) then some handle else r.handle⟩
  | .error e => .error e

/-- Begins a stop, if the server is running. -/
def beginStop (r : Runtime) : StopGate × Runtime :=
  match r.state with
  | .stopping .. => (.alreadyStopping, r)
  | .stopped => (.notRunning, r)
  | .starting => (.notRunning, r)
  | .running .. =>
    match Lifecycle.apply r.state .stopRequested with
    | .ok t => (.open r.handle, { r with state := t.new })
    | .error e => (.refused e, r)

/-- Takes back a stop whose signal could not be delivered. -/
def failStop (r : Runtime) (reason : String) : Runtime :=
  { r with state := Lifecycle.after r.state (.stopFailed reason) }

/-- Records the exit of a child. -/
def recordExit (r : Runtime) (pid : Nat) (exit : Exit) :
    Except Lifecycle.Refusal (Lifecycle.Transition × Runtime) :=
  match Lifecycle.apply r.state (.processExited pid exit) with
  | .ok t => .ok (t, ⟨t.new, if t.effects.contains .clearHandle then none else r.handle⟩)
  | .error e => .error e

/-- The child whose exit a restart has to wait for. -/
def restartTarget (r : Runtime) : Option Nat :=
  match r.state with
  | .running .. => r.handle.map (·.child)
  | .stopping .. => r.handle.map (·.child)
  | _ => none

/-- The current child. -/
def child? (r : Runtime) : Option Nat := r.handle.map (·.child)

/-- Hands out the current child's standard streams; at most once for each child. -/
def takeStreams (r : Runtime) : Bool × Runtime :=
  match r.handle with
  | some h => (h.streams, { r with handle := some { h with streams := false } })
  | none => (false, r)

/-- The published definitions: one while there is a child, otherwise none. -/
def definitions (r : Runtime) : List Definition := r.state.definition?.toList

end Runtime

end Steward.Supervisor
