import Steward.CommandLine.Help
import Steward.CommandLine.Prepare
import Steward.Console
import Steward.Schedule
import Steward.Station

/-!
# Sittings

An invocation of the command line at a station, from its arguments to its exit code. Someone sits there
and types, waits for lines of output, makes files, waits for processes to go or interrupts the command.

Everything goes on that can before the next thing is done; time passes only while someone waits, and
then up to the next moment that a process or a task waits for.
-/

namespace Steward.Rehearsal

open Steward.CommandLine (Invocation Command)
open Steward.Console (Phase Input Action)

/-- How an invocation ends. -/
inductive Ending where
  | code (n : Nat)
  | signal (s : Signal)
  deriving Repr, DecidableEq

structure Sitting where
  schedule : Schedule Station
  roles : Roles
  program : Call → Program Flow
  phase : Phase
  /-- the call that the dialogue has made -/
  task : Option Nat := none
  /-- how many changes of definitions it has heard of -/
  heard : Nat := 0
  /-- whether it has ever listened -/
  hasListened : Bool := false
  ending : Option Ending := none
  /-- how many lines of output have been read -/
  linesRead : Nat := 0

namespace Sitting

def world (s : Sitting) : World Station := s.schedule.world

def station (s : Sitting) : Station := s.world.outside

def changeWorld (s : Sitting) (f : World Station → World Station) : Sitting :=
  { s with schedule := { s.schedule with world := f s.schedule.world } }

def changeStation (s : Sitting) (f : Station → Station) : Sitting :=
  s.changeWorld fun w => { w with outside := f w.outside }

def changeTerminal (s : Sitting) (f : Terminal → Terminal) : Sitting :=
  s.changeStation fun st => { st with terminal := f st.terminal }

def isOver (s : Sitting) : Bool := s.ending.isSome

/-! ## The dialogue -/

/-- The invocation ends, and with it everything that it held of the processes. -/
def finish (s : Sitting) (e : Ending) : Sitting :=
  { s.changeStation (·.changeMachine fun m => m.hangUp.settle) with ending := some e, phase := .over }

def conclude (s : Sitting) : CommandLine.Report → Sitting
  | .success text => (s.changeTerminal (·.print text)).finish (.code 0)
  | .failure text => (s.changeTerminal (·.printError text)).finish (.code 1)

def act (s : Sitting) : Action → Sitting
  | .print text => s.changeTerminal (·.print text)
  | .call c =>
    let (task, w) := s.world.addTask (s.program c)
    { s.changeWorld fun _ => w with task := some task }
  | .conclude r => s.conclude r

/-- The dialogue is told something. -/
def tell (s : Sitting) (i : Input) : Sitting :=
  let r := s.world.runtime
  let (actions, phase) := Console.react r.state r.definitions s.phase i
  let s := { s with phase := phase, hasListened := s.hasListened || phase == .listening }
  actions.foldl act s

/-- What the dialogue is to be told next. -/
def nextInput? (s : Sitting) : Option (Input × Sitting) :=
  match s.phase with
  | .over => none
  | .listening =>
    if s.heard < s.world.changes then some (.changed, { s with heard := s.heard + 1 })
    else
      match s.station.terminal.commands with
      | line :: rest => some (.line line, s.changeTerminal ({ · with commands := rest }))
      | [] => if s.station.terminal.closed then some (.closed, s) else none
  | _ =>
    (s.task.bind s.world.result?).map fun o => (.finished o, { s with task := none })

/-! ## Rounds -/

def settleTasks (s : Sitting) : Sitting :=
  { s with schedule := s.schedule.settle Station.environment s.roles }

/-- The processes go on; what servers tell is passed to those who observe them. Tells whether anything
has happened. -/
def runProcesses (s : Sitting) : Bool × Sitting :=
  let busy := s.station.machine.canGoOn
  let (events, station) := s.station.listen
  let s := s.changeStation fun _ => station
  (busy || !events.isEmpty,
    events.foldl (fun s (child, e) => s.changeWorld (·.changeChild child (·.emit e))) s)

/-- Lets everything go on that can, for at most so many rounds. -/
def quiesce : Nat → Sitting → Sitting
  | 0, s => s
  | fuel + 1, s =>
    if s.isOver then s
    else
      let s := s.settleTasks
      match s.nextInput? with
      | some (i, s) => quiesce fuel (s.tell i)
      | none =>
        match s.runProcesses with
        | (true, s) => quiesce fuel s
        | (false, s) => s

/-- The next moment that anyone waits for. -/
def nextMoment? (s : Sitting) : Option Nat :=
  (s.world.nextDeadline?.toList ++ s.station.machine.nextMoment?.toList).min?

def passTo (s : Sitting) (moment : Nat) : Sitting :=
  (s.changeWorld fun w => { w with now := moment }).changeStation
    (·.changeMachine fun m => { m with now := moment })

def patience : Nat := 100000

/-- How long one waits, in milliseconds. -/
def waitingTime : Nat := 3600000

/-- Waits until something holds, the invocation ends or nothing can happen any more. -/
def waitUntil (holds : Sitting → Bool) (limit : Nat) : Nat → Sitting → Sitting
  | 0, s => s
  | fuel + 1, s =>
    let s := s.quiesce patience
    if s.isOver || holds s then s
    else
      match s.nextMoment? with
      | some moment => if moment ≤ limit then waitUntil holds limit fuel (s.passTo moment) else s
      | none => s

/-- Lets time pass up to a moment, and everything go on that can by then. -/
def passThrough (s : Sitting) (target : Nat) : Nat → Sitting
  | 0 => s
  | fuel + 1 =>
    let s := s.quiesce patience
    match s.isOver, s.nextMoment? with
    | false, some moment =>
      if moment ≤ target then (s.passTo moment).passThrough target fuel
      else (s.passTo (max s.world.now target)).quiesce patience
    | false, none => (s.passTo (max s.world.now target)).quiesce patience
    | true, _ => s

def await (s : Sitting) (holds : Sitting → Bool) : Sitting :=
  waitUntil holds (s.world.now + waitingTime) patience s

/-! ## What is done at the station -/

inductive Deed where
  | send (text : String)
  /-- makes a file -/
  | touch (path : String)
  /-- waits until the process whose id is in a file is gone -/
  | gone (path : String)
  | interrupt
  deriving Repr, DecidableEq

/-- Something to do, and then a text to wait for in the output. -/
structure Step where
  deed : Option Deed := none
  wait : Option String := none
  deriving Repr, DecidableEq

/-- The process whose id is in a file. -/
def pidIn (fs : Files) (path : String) : Option Nat :=
  match fs.read path with
  | .ok bytes => Text.decimal? (Text.trim (Text.Utf8.decodeLossy bytes))
  | .error _ => none

def touch (fs : Files) (path : String) : Files :=
  match fs.openForWriting path with
  | .ok (_, fs) => fs
  | .error _ => fs

/-- An interrupt ends a command that has never listened for one; while another command is carried out it
is lost. -/
def interrupt (s : Sitting) : Sitting :=
  if s.isOver then s
  else if s.hasListened then s.tell .interrupted
  else s.finish (.signal .interrupt)

def perform (s : Sitting) : Deed → Sitting
  | .send text => s.changeTerminal (·.type (Text.Utf8.encode text.toList))
  | .touch path => s.changeStation (·.changeMachine fun m => m.putFiles (touch m.files path))
  | .gone path =>
    s.await fun s =>
      match pidIn s.station.machine.files path with
      | some pid => !s.station.machine.exists? pid
      | none => false
  | .interrupt => (s.quiesce patience).interrupt

/-- The lines of output that nobody has read yet. -/
def unread (s : Sitting) : List String := s.station.terminal.stdout.drop s.linesRead

/-- Whether a text stands somewhere in a line. -/
def occursIn (text : List Char) : List Char → Bool
  | [] => text.isEmpty
  | c :: cs => text.isPrefixOf (c :: cs) || occursIn text cs

def isIn (text line : String) : Bool := occursIn text.toList line.toList

/-- Reads lines up to the first one with the text, which is read too. -/
def readThrough (s : Sitting) (text : String) : List String × Sitting :=
  let s := s.await fun s => s.unread.any (isIn text)
  let before := s.unread.takeWhile fun line => !isIn text line
  let lines := s.unread.take (before.length + 1)
  (lines, { s with linesRead := s.linesRead + lines.length })

def step (s : Sitting) (st : Step) : List String × Sitting :=
  let s := (match st.deed with
    | some d => s.perform d
    | none => s).quiesce patience
  match st.wait with
  | some text => s.readThrough text
  | none => ([], s)

def steps (s : Sitting) : List Step → List (List String) × Sitting
  | [] => ([], s)
  | st :: rest =>
    let (lines, s) := s.step st
    let (more, s) := s.steps rest
    (lines :: more, s)

/-! ## From the arguments to the exit code -/

/-- A sitting whose command has nothing to wait for. -/
def idle (st : Station) : Sitting :=
  { schedule := { world := { outside := st, now := st.machine.now } }
    roles := ⟨fun _ _ => return .finish .nothing, return .finish .nothing⟩
    program := fun _ => return .finish .nothing
    phase := .over }

/-- The arguments ask for nothing that can be carried out. -/
def reject (st : Station) (f : CommandLine.Fault) : Sitting :=
  let text := f.text
  let s := idle st
  if f.kind.exitCode == 0 then (s.changeTerminal (·.print text)).finish (.code 0)
  else (s.changeTerminal (·.printError text)).finish (.code f.kind.exitCode)

/-- A sitting whose command makes a call first. -/
def engage (st : Station) (p : CommandLine.Prepared) (yes : Bool) (phase : Phase) (c : Call) :
    Sitting :=
  let begun : Except Failure (Service × OutputLog × Files) := do
    let service ← CommandLine.serviceOf p.config
    let (log, fs) ← CommandLine.openLog st.machine.files st.environ p.config service
    return (service, log, fs)
  match begun with
  | .error e => (idle st).conclude (CommandLine.refused e)
  | .ok (service, log, fs) =>
    let st := { st.changeMachine (·.putFiles fs) with
      terminal := { st.terminal with assumeYes := yes }
      configPath := p.configPath
      config := p.config
      binaryName := service.identity.binaryName
      log := some log }
    { idle st with
      roles := service.roles, program := (·.program service), phase := phase }.act (.call c)

/-- The command begins. -/
def start (st : Station) (i : Invocation) : Sitting :=
  let p := CommandLine.prepare st.machine.files st.environ i
  let st := { st.changeMachine (·.putFiles p.files) with
    terminal := p.warnings.foldl Terminal.printError st.terminal }
  match CommandLine.look p st.environ i.command, i.command with
  | some r, _ => (idle st).conclude r
  | none, .run yes => engage st p yes .activating .activate
  | none, .checkUpdate yes => engage st p yes .checking .checkForUpdates
  | none, _ => idle st

def begin (st : Station) (args : List String) : Sitting :=
  match CommandLine.parse args with
  | .error f => reject st f
  | .ok i => start st i

/-- What became of a sitting. -/
structure Record where
  /-- the lines that each step has read -/
  steps : List (List String)
  /-- the lines that were left -/
  stdout : List String
  stderr : List String
  ending : Option Ending

/-- A whole sitting; behind the last step the input ends. Also gives the machine as it is left. -/
def run (st : Station) (args : List String) (todo : List Step) : Record × Machine :=
  let (lines, s) := (begin st args).steps todo
  let s := (s.changeTerminal (·.endInput)).await fun _ => false
  ({ steps := lines, stdout := s.unread, stderr := s.station.terminal.stderr, ending := s.ending },
    s.station.machine)

end Sitting

end Steward.Rehearsal
