import Steward.Capture
import Steward.Machine.Step

/-!
# Processes that the host has started

The host launches servers and listens to them, and runs commands to their end. A server over HTTP is
heard line by line on both output streams; a server over stdio keeps its input and output for others.
Its exit is told when it has ended and both streams have been read to their ends.
-/

namespace Steward

open Steward.Text.Utf8 (Bytes)

namespace Machine

/-- The refusal of a signal to a process that is gone. -/
def notRunning (pid : Nat) : Failure := .process s!"Process {pid} is no longer running"

/-- Sends a signal to a process that the host has started. -/
def deliver (m : Machine) (pid : Nat) (s : Signal) : Except Failure Unit × Machine :=
  if m.exists? pid then (.ok (), m.signal pid s) else (.error (notRunning pid), m)

/-- A pipe that the host reads from. -/
def addOutput (m : Machine) : Nat × Machine := m.addPipe { hostReads := true }

def stopReading (m : Machine) (pipe : Nat) : Machine := m.changePipe pipe ({ · with hostReads := false })

def stopWriting (m : Machine) (pipe : Nat) : Machine := m.changePipe pipe ({ · with hostWrites := false })

/-- The host writes into a pipe, as long as someone can read it. -/
def hostWrite (m : Machine) (pipe : Nat) (bytes : Bytes) : Machine :=
  if m.hasReader pipe then m.changePipe pipe (·.push bytes) else m

/-- The host goes away: nobody holds its ends of the pipes any more. -/
def hangUp (m : Machine) : Machine :=
  { m with pipes := m.pipes.map fun p => { p with hostReads := false, hostWrites := false } }

end Machine

/-! ## Streams -/

/-- An output stream that is captured. -/
structure Stream where
  pipe : Nat
  capture : Capture := {}
  deriving Repr, DecidableEq

namespace Stream

/-- Takes what is in the pipe. The pipe is let go when the capture ends or nobody can write to it. -/
def poll (st : Stream) (m : Machine) (heard : Bool) (make : String → ChildEvent) :
    List ChildEvent × Stream × Machine :=
  if !st.capture.reading then ([], st, m)
  else
    let (chunk, m) := m.drain st.pipe
    let (events, capture) := st.capture.feed heard make chunk
    let (more, capture) := if m.hasWriter st.pipe then ([], capture) else capture.close heard make
    (events ++ more, { st with capture := capture },
      if capture.reading then m else m.stopReading st.pipe)

end Stream

/-! ## Servers -/

structure Launch where
  pid : Nat
  transport : Transport
  stdout : Option Stream := none
  stderr : Option Stream := none
  /-- the pipes that are handed out: its input and its output -/
  streams : Option (Nat × Nat) := none
  /-- how it ended, once that is known -/
  exit : Option Exit := none
  /-- whether its exit has been told -/
  told : Bool := false
  deriving Repr, DecidableEq

namespace Launch

/-- Starts a server. -/
def start (m : Machine) (v : Variables) (spec : LaunchSpec) : Except OsError (Launch × Machine) :=
  match spec.transport with
  | .http => do
    let (out, m) := m.addOutput
    let (err, m) := m.addOutput
    let (pid, m) ← m.spawn v spec.program spec.args
      [(0, .nowhere), (1, .writeEnd out), (2, .writeEnd err)]
    return ({ pid := pid, transport := .http, stdout := some ⟨out, {}⟩, stderr := some ⟨err, {}⟩ }, m)
  | .stdio => do
    let (inp, m) := m.addPipe { hostWrites := true }
    let (out, m) := m.addOutput
    let (pid, m) ← m.spawn v spec.program spec.args
      [(0, .readEnd inp), (1, .writeEnd out), (2, .nowhere)]
    return ({ pid := pid, transport := .stdio, streams := some (inp, out) }, m)

/-- The refusal of a start. -/
def refusal (spec : LaunchSpec) (e : OsError) : Failure :=
  .process ("Failed to spawn '" ++ spec.program ++ "': " ++ e.message)

/-- Reads one of the streams, if there is one. -/
def pollStream (st : Option Stream) (m : Machine) (heard : Bool) (make : String → ChildEvent) :
    List ChildEvent × Option Stream × Machine :=
  match st with
  | none => ([], none, m)
  | some st =>
    let (events, st, m) := st.poll m heard make
    (events, some st, m)

/-- How a process ended, and what is told if that cannot be found out. -/
def learnExit (m : Machine) (l : Launch) (statusLost : Bool) : List ChildEvent × Launch :=
  match l.exit, m.ends.lookup l.pid with
  | none, some exit =>
    if statusLost then
      ([.error ("Failed to wait for process exit: " ++ OsError.noChild.message)],
        { l with exit := some {} })
    else ([], { l with exit := some exit })
  | _, _ => ([], l)

def isReading (st : Option Stream) : Bool := st.any (·.capture.reading)

/-- The exit is told once it is known and both streams have been read to their ends, and only once. -/
def tellExit (l : Launch) : List ChildEvent × Launch :=
  match l.exit with
  | some exit =>
    if l.told || isReading l.stdout || isReading l.stderr then ([], l)
    else ([.exited exit], { l with told := true })
  | none => ([], l)

/-- Listens to a server: what it has told since the last time. -/
def poll (l : Launch) (m : Machine) (heard statusLost : Bool) : List ChildEvent × Launch × Machine :=
  let (out, stdout, m) := pollStream l.stdout m heard .stdout
  let (err, stderr, m) := pollStream l.stderr m heard .stderr
  let (lost, l) := learnExit m { l with stdout := stdout, stderr := stderr } statusLost
  let (exit, l) := l.tellExit
  (out ++ err ++ lost ++ exit, l, m)

end Launch

/-! ## Commands -/

/-- A command that is run to its end. -/
structure Errand where
  program : String
  pid : Nat
  stdout : Nat
  stderr : Nat
  deriving Repr, DecidableEq

namespace Errand

def refusal (program : String) (e : OsError) : Failure :=
  .process ("Failed to run '" ++ program ++ "': " ++ e.message)

/-- Starts a command with nothing to read. -/
def start (m : Machine) (v : Variables) (program : String) (args : List String) :
    Except Failure (Errand × Machine) :=
  let (out, m) := m.addOutput
  let (err, m) := m.addOutput
  match m.spawn v program args [(0, .nowhere), (1, .writeEnd out), (2, .writeEnd err)] with
  | .ok (pid, m) => .ok (⟨program, pid, out, err⟩, m)
  | .error e => .error (refusal program e)

/-- The result, once the command has ended and nobody writes any more. -/
def result? (e : Errand) (m : Machine) (statusLost : Bool) : Option (Except Failure CommandOutput) :=
  match m.ends.lookup e.pid with
  | none => none
  | some exit =>
    if m.hasWriter e.stdout || m.hasWriter e.stderr then none
    else if statusLost then some (.error (refusal e.program .noChild))
    else
      let text (pipe : Nat) : String := String.ofList (Text.Utf8.decodeLossy (m.pipeBytes pipe))
      some (.ok { exitCode := exit.code, stdout := text e.stdout, stderr := text e.stderr })

end Errand

end Steward
