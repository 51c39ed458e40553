import Steward.Call
import Steward.Rehearsal.Script
import Steward.Schedule

/-!
# Sessions

A session is a sequence of steps: calls to the service, calls made in the background, and things that
happen around it. Behind each step everything goes on that can, and only then is it reported.
-/

namespace Steward.Rehearsal

inductive Step where
  | call (c : Call)
  | background (id : String) (c : Call)
  | finished (id : String)
  | join (id : String)
  | set (change : Script → Script)
  | advance (milliseconds : Nat)
  | answer (choice : Option String)
  | emit (child : Nat) (event : ChildEvent)
  | vanish (child : Nat)

/-- What a step comes to. -/
inductive StepResult where
  | nothing
  | flag (b : Bool)
  | outcome (o : Outcome)
  | neverFinished
  | reach (r : Script.Reach)
  /-- the process id of a child that vanished, and whether it had still been there -/
  | vanished (pid : Nat) (wasSpeaking : Bool)
  deriving Repr, DecidableEq

structure Report where
  result : StepResult
  /-- what happened since the last step, earliest first -/
  happenings : List Happening
  /-- how often a change of definitions was announced since the last step -/
  changes : Nat
  state : Lifecycle.State
  definitions : List Definition

structure Session where
  service : Service
  schedule : Schedule Script
  /-- the tasks of the calls in the background -/
  names : List (String × Nat) := []

namespace Session

/-- How long a call may take, in milliseconds. -/
def hour : Nat := 3600000

def world (s : Session) : World Script := s.schedule.world

def changeWorld (s : Session) (f : World Script → World Script) : Session :=
  { s with schedule := { s.schedule with world := f s.schedule.world } }

def settle (s : Session) : Session :=
  { s with schedule := s.schedule.settle Script.environment s.service.roles }

def limit (s : Session) : Nat := s.world.now + hour

/-- The task behind a name, the latest of that name. -/
def task? (s : Session) (id : String) : Option Nat :=
  (s.names.find? fun (name, _) => name == id).map (·.2)

/-- Waits for a call in the background. -/
def join (s : Session) (task : Nat) : StepResult × Session :=
  let done := fun (w : World Script) => (w.result? task).isSome
  let (finished, schedule) := Schedule.runUntil Script.environment s.service.roles done s.limit
    Schedule.patience s.schedule
  let s := { s with schedule := schedule }
  if finished then
    match s.world.result? task with
    | some o => (.outcome o, s)
    | none => (.neverFinished, s)
  else (.neverFinished, s.changeWorld fun w => { w with now := s.limit })

/-- What a step does, before everything else goes on. -/
def perform (s : Session) : Step → StepResult × Session
  | .call c =>
    match s.schedule.call Script.environment s.service.roles (c.program s.service) s.limit with
    | (some o, schedule) => (.outcome o, { s with schedule := schedule })
    | (none, schedule) => (.neverFinished, { s with schedule := schedule })
  | .background id c =>
    let (task, w) := s.world.addTask (c.program s.service)
    (.nothing, { s.changeWorld fun _ => w with names := (id, task) :: s.names })
  | .finished id =>
    match s.task? id with
    | some task => (.flag (s.world.result? task).isSome, s)
    | none => (.flag false, s)
  | .join id =>
    match s.task? id with
    | some task => s.join task
    | none => (.nothing, s)
  | .set change => (.nothing, s.changeWorld fun w => { w with outside := change w.outside })
  | .advance milliseconds =>
    (.nothing, { s with
      schedule := s.schedule.passTo Script.environment s.service.roles
        (s.world.now + milliseconds) Schedule.patience })
  | .answer choice =>
    let (reach, script) := s.world.outside.answerHeld choice
    (.reach reach, s.changeWorld fun w => { w with outside := script })
  | .emit child event =>
    match s.world.children[child]? with
    | none => (.flag false, s)
    | some c =>
      (.flag (c.speaking && c.heard), s.changeWorld fun w => w.changeChild child (·.emit event))
  | .vanish child =>
    match s.world.children[child]? with
    | none => (.nothing, s)
    | some c => (.vanished c.pid c.speaking, s.changeWorld fun w => w.changeChild child (·.vanish))

/-- One step with its report. -/
def step (s : Session) (st : Step) : Report × Session :=
  let told := s.world.history.length
  let changes := s.world.changes
  let (result, s) := s.perform st
  let s := s.settle
  let w := s.world
  ({ result := result
     happenings := (w.history.take (w.history.length - told)).reverse
     changes := w.changes - changes
     state := w.runtime.state
     definitions := w.runtime.definitions }, s)

def run (s : Session) : List Step → List Report × Session
  | [] => ([], s)
  | st :: rest =>
    let (report, s) := s.step st
    let (reports, s) := s.run rest
    (report :: reports, s)

/-- A new session. -/
def begin (service : Service) (script : Script) : Session :=
  { service := service, schedule := { world := { outside := script } } }

end Session

/-- Runs a single program against a script. -/
def runAlone (roles : Roles) (script : Script) (p : Program Flow) :
    Option Outcome × World Script :=
  let (o, s) := ({ world := { outside := script } } : Schedule Script).call Script.environment roles p
    Session.hour
  (o, s.world)

end Steward.Rehearsal
