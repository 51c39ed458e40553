import Steward.Exit
import Steward.Files
import Steward.Shell.State
import Steward.Text.Line

/-!
# A machine

Files, processes, the pipes between them and a clock. A process is either a shell or one of a few
programs that come with the machine. The host, which uses the machine, may hold ends of pipes too.

A pipe has reached its end when nobody is left who could write to it; writing to a pipe that nobody can
read from fails and sends the writer a signal.
-/

namespace Steward

open Steward.Text.Utf8 (Bytes)
open Steward.Shell (Channel Channels)

structure Pipe where
  /-- bytes that can be read -/
  ready : Bytes := []
  /-- what was written behind them, latest first -/
  recent : List Bytes := []
  hostReads : Bool := false
  hostWrites : Bool := false
  deriving Repr, DecidableEq

namespace Pipe

def bytes (p : Pipe) : Bytes := p.ready ++ p.recent.reverse.flatten

def push (p : Pipe) (bytes : Bytes) : Pipe := { p with recent := bytes :: p.recent }

/-- Leaves only these bytes in the pipe. -/
def keep (p : Pipe) (bytes : Bytes) : Pipe := { p with ready := bytes, recent := [] }

end Pipe

/-- What a process does. -/
inductive Body where
  | shell (sh : Shell)
  /-- a shell that takes its script from the input -/
  | gather (sh : Shell)
  /-- sleeps up to a moment, or for ever -/
  | sleep (moment : Option Nat)
  /-- writes files to the output; a dash is the input -/
  | copy (files : List String)
  /-- a program that is done at once -/
  | utility (name : String) (args : List String)
  /-- writes a message and fails -/
  | complain (text : String) (code : Nat)
  deriving Repr, DecidableEq

structure Process where
  pid : Nat
  /-- zero if the host has started it -/
  parent : Nat
  channels : Channels
  directory : Place
  environ : Variables
  ignored : List Signal := []
  /-- signals that wait for their traps -/
  pending : List Signal := []
  body : Body
  deriving Repr, DecidableEq

namespace Process

def channel? (p : Process) (descriptor : Nat) : Option Channel := p.channels.lookup descriptor

/-- Whether the process has a script for the signal. -/
def catches (p : Process) (s : Signal) : Bool :=
  match p.body with
  | .shell sh => (sh.trap? (some s)).any (!·.isEmpty)
  | _ => false

end Process

structure Machine where
  files : Files := {}
  /-- milliseconds since the beginning -/
  now : Nat := 0
  /-- in the order in which they began -/
  processes : List Process := []
  pipes : List Pipe := []
  /-- how processes ended, as far as nobody has asked yet -/
  ends : List (Nat × Exit) := []
  nextPid : Nat := 101
  deriving Inhabited

namespace Machine

/-! ## Processes -/

def process? (m : Machine) (pid : Nat) : Option Process := m.processes.find? (·.pid == pid)

def change (m : Machine) (pid : Nat) (f : Process → Process) : Machine :=
  { m with processes := m.processes.map fun p => if p.pid == pid then f p else p }

def setBody (m : Machine) (pid : Nat) (b : Body) : Machine := m.change pid ({ · with body := b })

def setShell (m : Machine) (pid : Nat) (sh : Shell) : Machine := m.setBody pid (.shell sh)

/-- A new process. -/
def add (m : Machine) (p : Process) : Nat × Machine :=
  (m.nextPid, { m with
    processes := m.processes ++ [{ p with pid := m.nextPid }], nextPid := m.nextPid + 1 })

/-- A process ends. -/
def finish (m : Machine) (pid : Nat) (exit : Exit) : Machine :=
  { m with
    processes := m.processes.filter (·.pid != pid)
    ends := (pid, exit) :: m.ends }

def exitWith (m : Machine) (pid code : Nat) : Machine :=
  m.finish pid { code := some ((code % 256 : Nat) : Int) }

/-- Sends a signal. The kill signal cannot be ignored or caught. -/
def signal (m : Machine) (pid : Nat) (s : Signal) : Machine :=
  match m.process? pid with
  | none => m
  | some p =>
    let ended := m.finish pid { signal := some (s.number : Int) }
    if s == .kill then ended
    else if p.ignored.contains s then m
    else if p.catches s then m.change pid fun p => { p with pending := p.pending ++ [s] }
    else if s.endsProcess then ended
    else m

/-- How a process ended; the answer is given once. -/
def takeEnd (m : Machine) (pid : Nat) : Option Exit × Machine :=
  match m.ends.lookup pid with
  | some exit => (some exit, { m with ends := m.ends.filter (·.1 != pid) })
  | none => (none, m)

/-! ## Pipes -/

def addPipe (m : Machine) (p : Pipe) : Nat × Machine :=
  (m.pipes.length, { m with pipes := m.pipes ++ [p] })

def changePipe (m : Machine) (pipe : Nat) (f : Pipe → Pipe) : Machine :=
  { m with pipes := m.pipes.modify pipe f }

def isHeld (m : Machine) (c : Channel) : Bool :=
  m.processes.any fun p => p.channels.any fun (_, d) => d == c

def hasReader (m : Machine) (pipe : Nat) : Bool :=
  (m.pipes[pipe]?).any (·.hostReads) || m.isHeld (.readEnd pipe)

def hasWriter (m : Machine) (pipe : Nat) : Bool :=
  (m.pipes[pipe]?).any (·.hostWrites) || m.isHeld (.writeEnd pipe)

def pipeBytes (m : Machine) (pipe : Nat) : Bytes := ((m.pipes[pipe]?).map (·.bytes)).getD []

/-- Takes everything out of a pipe. -/
def drain (m : Machine) (pipe : Nat) : Bytes × Machine :=
  (m.pipeBytes pipe, m.changePipe pipe (·.keep []))

/-! ## Files -/

/-- The files as a process sees them. -/
def filesOf (m : Machine) (p : Process) : Files := { m.files with workingDirectory := p.directory }

def putFiles (m : Machine) (fs : Files) : Machine :=
  { m with files := { fs with workingDirectory := m.files.workingDirectory } }

/-! ## Reading and writing -/

/-- Writes to a descriptor; tells whether that went well. -/
def output (m : Machine) (pid descriptor : Nat) (bytes : Bytes) : Bool × Machine :=
  if bytes.isEmpty then (true, m)
  else
    match (m.process? pid).bind (·.channel? descriptor) with
    | some .nowhere => (true, m)
    | some (.file place) => (true, { m with files := m.files.change place (· ++ bytes) })
    | some (.writeEnd pipe) =>
      if m.hasReader pipe then (true, m.changePipe pipe (·.push bytes))
      else (false, m.signal pid .brokenPipe)
    | _ => (false, m)

/-- What can be read from a descriptor. -/
inductive Input where
  | bytes (b : Bytes)
  | wait
  | ended
  deriving Repr, DecidableEq

/-- Takes what can be read. -/
def input (m : Machine) (pid descriptor : Nat) : Input × Machine :=
  match (m.process? pid).bind (·.channel? descriptor) with
  | some (.readEnd pipe) =>
    match m.drain pipe with
    | ([], m) => (if m.hasWriter pipe then .wait else .ended, m)
    | (bytes, m) => (.bytes bytes, m)
  | _ => (.ended, m)

/-- Takes one line, without its newline; an incomplete last one is marked. -/
def inputLine (m : Machine) (pid descriptor : Nat) : Option (Bytes × Bool) × Machine :=
  match (m.process? pid).bind (·.channel? descriptor) with
  | some (.readEnd pipe) =>
    let bytes := m.pipeBytes pipe
    let line := bytes.takeWhile (· != Text.Line.newline)
    match bytes.drop line.length with
    | _ :: rest => (some (line, true), m.changePipe pipe (·.keep rest))
    | [] =>
      if m.hasWriter pipe then (none, m)
      else (some (line, false), m.changePipe pipe (·.keep []))
  | _ => (some ([], false), m)

end Machine

end Steward
