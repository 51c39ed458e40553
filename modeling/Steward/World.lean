import Steward.Activation

/-!
# Programs in a world

A `World` holds everything that several programs share: the supervisor's state, the children, the
current update check, the tasks and the clock. `World.attempt` lets one task take one step and is
`none` if the task has to wait. In what order tasks take their steps, when time passes and when a child
speaks or dies is decided elsewhere, and may be decided in any way.

The world outside is an `Environment`, a machine with a state of its own that answers queries.
-/

namespace Steward

/-- What a task ends with. -/
inductive Outcome where
  | nothing
  | flag (b : Bool)
  | start (o : Supervisor.StartOutcome)
  | stop (o : Supervisor.StopOutcome)
  | command (o : Activation.CommandOutcome)
  | unknownCommand (u : ServerCommand.Unknown)
  | install (o : Tool.InstallOutcome)
  | check (c : Option Update.Check)
  | version (v : Option String)
  deriving Repr, DecidableEq

/-- Whether a task is finished or begins its program again. -/
inductive Flow where
  | again
  | finish (o : Outcome)
  deriving Repr, DecidableEq

structure Task where
  /-- what is still to be done -/
  rest : Program Flow
  /-- what is done when it begins again -/
  body : Program Flow
  result : Option Outcome := none
  /-- it is to end without a result -/
  cancelled : Bool := false
  /-- nobody carries it on -/
  dropped : Bool := false

namespace Task

def ofProgram (p : Program Flow) : Task := { rest := p, body := p }

def isOver (t : Task) : Bool := t.result.isSome || t.dropped

/-- The prompt that the task waits for. -/
def prompt? (t : Task) : Option Nat :=
  match t.rest with
  | .ask (.awaitPrompt ticket) _ => some ticket
  | _ => none

end Task

/-- A process that was started, as the supervisor sees it. -/
structure Child where
  pid : Nat
  transport : Transport
  /-- whether the process exists -/
  alive : Bool := true
  /-- whether it may still tell something -/
  speaking : Bool := true
  /-- what it told and nobody has taken yet -/
  events : List ChildEvent := []
  /-- whether anyone listens -/
  heard : Bool := true
  /-- whether its exit has been dealt with -/
  exited : Bool := false
  deriving Repr, DecidableEq

namespace Child

/-- The child tells something, if it still can. The exit is the last thing it tells. -/
def emit (c : Child) (e : ChildEvent) : Child :=
  if c.speaking then
    match e with
    | .exited _ => { c with events := c.events ++ [e], speaking := false, alive := false }
    | _ => { c with events := c.events ++ [e] }
  else c

/-- The child is gone without a word. -/
def vanish (c : Child) : Child := { c with speaking := false, alive := false }

end Child

/-- The world outside. -/
structure Environment (ε : Type) where
  answer : (q : Query) → ε → q.Answer × ε
  /-- the reply to a prompt, once it is there -/
  reply? : ε → Nat → Option (Option String)
  /-- the result of a command, once it is there -/
  result? : ε → Nat → Option (Except Failure CommandOutput)
  /-- nobody waits for that prompt any more -/
  forget : Nat → ε → ε

/-- The programs of tasks that other programs start. -/
structure Roles where
  observer : (child pid : Nat) → Program Flow
  updateCheck : Program Flow

/-- What can be told afterwards. -/
inductive Happening where
  | asked (task : Nat) (q : Query) (a : q.Answer)
  | replied (task ticket : Nat) (choice : Option String)

structure World (ε : Type) where
  outside : ε
  runtime : Supervisor.Runtime := {}
  children : List Child := []
  tasks : List Task := []
  /-- the current update check -/
  slot : Option Nat := none
  /-- how often a change of definitions was announced -/
  changes : Nat := 0
  /-- milliseconds since the beginning -/
  now : Nat := 0
  /-- latest first -/
  history : List Happening := []

namespace World

variable {ε : Type}

def changeChild (w : World ε) (child : Nat) (f : Child → Child) : World ε :=
  { w with children := w.children.modify child f }

def changeTask (w : World ε) (task : Nat) (f : Task → Task) : World ε :=
  { w with tasks := w.tasks.modify task f }

/-- Adds a task; its number is how many there were before. -/
def addTask (w : World ε) (p : Program Flow) : Nat × World ε :=
  (w.tasks.length, { w with tasks := w.tasks ++ [.ofProgram p] })

/-- Asks the world outside. -/
def ask (env : Environment ε) (w : World ε) (task : Nat) (q : Query) : q.Answer × World ε :=
  let (a, outside) := env.answer q w.outside
  (a, { w with outside := outside, history := .asked task q a :: w.history })

/-- The child reports its exit, if a signal made it end at once. -/
def exitNow (w : World ε) (child : Nat) : Option Exit → World ε
  | some exit => w.changeChild child (·.emit (.exited exit))
  | none => w

/-- Starts a child. -/
def spawn (env : Environment ε) (w : World ε) (task : Nat) (spec : LaunchSpec) :
    Except Failure (Nat × Nat) × World ε :=
  match w.ask env task (.spawn spec) with
  | (.error e, w) => (.error e, w)
  | (.ok pid, w) =>
    (.ok (w.children.length, pid),
      { w with children := w.children ++ [{ pid := pid, transport := spec.transport }] })

/-- Begins a stop and signals the child. If the signal cannot be delivered the stop is taken back. -/
def stop (env : Environment ε) (w : World ε) (task : Nat) : Request.StopResult × World ε :=
  match w.runtime.beginStop with
  | (.notRunning, _) => (.notRunning, w)
  | (.alreadyStopping, _) => (.alreadyStopping, w)
  | (.refused refusal, _) => (.refused refusal, w)
  | (.open none, runtime) =>
    let e := Failure.process "No process handle"
    (.undelivered e, { w with runtime := runtime.failStop e.message })
  | (.open (some h), runtime) =>
    let (d, w) := { w with runtime := runtime }.ask env task (.terminate h.child h.pid)
    let w := w.exitNow h.child d.exit
    match d.result with
    | .ok () => (.delivered, w)
    | .error e => (.undelivered e, { w with runtime := w.runtime.failStop e.message })

/-- Kills the current child; a failure to do so has no consequence. -/
def killCurrent (env : Environment ε) (w : World ε) (task : Nat) : World ε :=
  match w.runtime.handle with
  | none => w
  | some h =>
    let (d, w) := w.ask env task (.kill h.child h.pid)
    w.exitNow h.child d.exit

/-- The next event of a child: `none` while there is nothing to take, `some none` at the end. -/
def nextEvent (w : World ε) (child : Nat) : Option (Option ChildEvent × World ε) :=
  match w.children[child]? with
  | none => some (none, w)
  | some c =>
    match c.events with
    | e :: rest => some (some e, w.changeChild child ({ · with events := rest }))
    | [] => if c.speaking then none else some (none, w)

/-- Whether the exit of a child has been dealt with. -/
def hasExited (w : World ε) (child : Nat) : Bool :=
  match w.children[child]? with
  | some c => c.exited
  | none => true

/-- The result of an update check, once it is over. -/
def checkResult (w : World ε) (task : Nat) : Option (Option Update.Check) :=
  match w.tasks[task]? with
  | none => some none
  | some t =>
    match t.result with
    | some (.check c) => some c
    | some _ => some none
    | none => if t.dropped then some none else none

/-- Performs one request of a task; `none` if it has to wait. -/
def perform (env : Environment ε) (roles : Roles) (w : World ε) (task : Nat) :
    (r : Request) → Option (r.Answer × World ε)
  | .query q => some (w.ask env task q)
  | .spawn spec => some (w.spawn env task spec)
  | .awaitPrompt ticket =>
    match env.reply? w.outside ticket with
    | some choice => some (choice, { w with history := .replied task ticket choice :: w.history })
    | none => none
  | .awaitCommand ticket => (env.result? w.outside ticket).map fun r => (r, w)
  | .beginStart =>
    let (gate, runtime) := w.runtime.beginStart
    some (gate, { w with runtime := runtime })
  | .abortStart reason => some ((), { w with runtime := w.runtime.abortStart reason })
  | .register handle definition =>
    match w.runtime.register handle definition with
    | .ok runtime => some (.ok (), { w with runtime := runtime })
    | .error e => some (.error e, w)
  | .stop => some (w.stop env task)
  | .recordExit pid exit =>
    match w.runtime.recordExit pid exit with
    | .ok (t, runtime) => some (.ok t, { w with runtime := runtime })
    | .error e => some (.error e, w)
  | .readState => some (w.runtime.state, w)
  | .restartTarget => some (w.runtime.restartTarget, w)
  | .currentChild => some (w.runtime.child?, w)
  | .killCurrent => some ((), w.killCurrent env task)
  | .takeStreams =>
    let (streams, runtime) := w.runtime.takeStreams
    some (streams, { w with runtime := runtime })
  | .announceChange => some ((), { w with changes := w.changes + 1 })
  | .observe child pid => some ((), (w.addTask (roles.observer child pid)).2)
  | .nextEvent child => w.nextEvent child
  | .raiseExited child =>
    some ((), w.changeChild child ({ · with exited := true, heard := false }))
  | .deadline milliseconds => some (w.now + milliseconds, w)
  | .awaitExit child moment =>
    if w.hasExited child then some (true, w)
    else if moment ≤ w.now then some (false, w)
    else none
  | .spawnCheck => some (w.addTask roles.updateCheck)
  | .swapCheck task => some (w.slot, { w with slot := some task })
  | .takeCheck => some (w.slot, { w with slot := none })
  | .cancelCheck task => some ((), w.changeTask task ({ · with cancelled := true }))
  | .awaitCheck task => (w.checkResult task).map fun c => (c, w)

/-- Lets go of the prompt that a task waits for. -/
def forgetPrompt (env : Environment ε) (w : World ε) (t : Task) : World ε :=
  match t.prompt? with
  | some ticket => { w with outside := env.forget ticket w.outside }
  | none => w

/-- Gives up a task for good. -/
def drop (env : Environment ε) (w : World ε) (task : Nat) : World ε :=
  match w.tasks[task]? with
  | none => w
  | some t =>
    if t.isOver then w
    else (w.forgetPrompt env t).changeTask task ({ · with dropped := true })

/-- Lets a task take one step; `none` if it is over or has to wait. -/
def attempt (env : Environment ε) (roles : Roles) (w : World ε) (task : Nat) : Option (World ε) :=
  match w.tasks[task]? with
  | none => none
  | some t =>
    if t.isOver then none
    else if t.cancelled then
      some ((w.forgetPrompt env t).changeTask task ({ · with result := some (.check none) }))
    else
      match t.rest with
      | .done (.finish o) => some (w.changeTask task ({ · with result := some o }))
      | .done .again => some (w.changeTask task ({ · with rest := t.body }))
      | .ask r k =>
        (w.perform env roles task r).map fun (a, w) => w.changeTask task ({ · with rest := k a })

/-- The moment up to which a task waits, if it waits for a moment. -/
def deadline? (w : World ε) (task : Nat) : Option Nat :=
  match w.tasks[task]? with
  | none => none
  | some t =>
    if t.isOver then none
    else
      match t.rest with
      | .ask (.awaitExit _ moment) _ => some moment
      | _ => none

/-- The earliest moment that any task waits for. -/
def nextDeadline? (w : World ε) : Option Nat :=
  ((List.range w.tasks.length).filterMap w.deadline?).min?

/-- The result of a task, once it has one. -/
def result? (w : World ε) (task : Nat) : Option Outcome := (w.tasks[task]?).bind (·.result)

end World

end Steward
