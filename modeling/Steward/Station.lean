import Steward.Config.File
import Steward.Machine.Launch
import Steward.Network
import Steward.OutputLog.File
import Steward.Port
import Steward.Service
import Steward.Terminal
import Steward.Tool.Locator
import Steward.World

/-!
# A station

A machine with a terminal, at which the service is used: the world outside as it really is. The tool is
looked for among the files, options are read from the settings file, servers and commands are processes
of the machine, the user is asked on the terminal and output goes to the log.
-/

namespace Steward

structure Station where
  machine : Machine := {}
  terminal : Terminal := {}
  environ : Variables := {}
  network : Network := .unreachable
  configPath : String := ""
  config : Config := {}
  /-- the name of the tool's program -/
  binaryName : String := ""
  log : Option OutputLog := none
  /-- the time that entries of the log get -/
  time : Timestamp
  /-- the servers, in the order of their starts -/
  launches : List Launch := []
  /-- the commands, in the order of their starts -/
  errands : List (Except Failure Errand) := []

namespace Station

def changeMachine (s : Station) (f : Machine → Machine) : Station := { s with machine := f s.machine }

/-- Starts a server. -/
def spawn (s : Station) (spec : LaunchSpec) : Except Failure Nat × Station :=
  match Launch.start s.machine s.environ spec with
  | .ok (l, m) => (.ok l.pid, { s with machine := m, launches := s.launches ++ [l] })
  | .error e => (.error (Launch.refusal spec e), s)

/-- Starts a command; its ticket is how many there were before. -/
def command (s : Station) (program : String) (args : List String) : Nat × Station :=
  match Errand.start s.machine s.environ program args with
  | .ok (e, m) => (s.errands.length, { s with machine := m, errands := s.errands ++ [.ok e] })
  | .error e => (s.errands.length, { s with errands := s.errands ++ [.error e] })

def sendSignal (s : Station) (pid : Nat) (signal : Signal) : Delivery × Station :=
  let (result, m) := s.machine.deliver pid signal
  ({ result := result }, { s with machine := m })

/-- The ports of the machine: nobody listens on any of them. -/
def ports : Port.Sockets where
  isFree _ := true
  handOut := .ok 41357

/-- Writes an entry into the log. -/
def write (s : Station) (level : OutputLog.Level) (text : String) : Station :=
  match s.log with
  | some log => s.changeMachine fun m => m.putFiles (log.append m.files s.time level text)
  | none => s

def answer : (q : Query) → Station → q.Answer × Station
  | .locate, s =>
    (Tool.locate s.machine.files s.environ s.binaryName s.config.tool.searchPath, s)
  | .readOptions, s => (.ok (ServerOptions.load s.machine.files s.configPath), s)
  | .negotiatePort preferred, s => (Port.negotiate ports preferred, s)
  | .spawn spec, s => s.spawn spec
  | .terminate _ pid, s => s.sendSignal pid .terminate
  | .kill _ pid, s => s.sendSignal pid .kill
  | .notify notice text, s => ((), { s with terminal := s.terminal.notify notice text })
  | .prompt severity text choices, s =>
    let (ticket, t) := s.terminal.openPrompt severity text choices
    (ticket, { s with terminal := t })
  | .progressStarted title, s => ((), { s with terminal := s.terminal.notify .info title })
  | .progressFinished _, s => ((), s)
  | .command program args, s => s.command program args
  | .tipCommit, s => (s.network.tipCommit s.config.update, s)
  | .tags, s => (s.network.tags s.config.update, s)
  | .write _ level text, s => ((), s.write level text)
  | .closeOutput, s => ((), { s with log := s.log.map (·.close) })
  | .hostInstall _, s => (none, s)

/-- The result of a command, once it is there. -/
def result? (s : Station) (ticket : Nat) : Option (Except Failure CommandOutput) :=
  match s.errands[ticket]? with
  | some (.ok e) => e.result? s.machine false
  | some (.error e) => some (.error e)
  | none => none

/-- The station as a world outside. -/
def environment : Environment Station where
  answer := answer
  reply? s ticket := s.terminal.reply? ticket
  result? := result?
  forget ticket s := { s with terminal := s.terminal.dropPrompt ticket }

/-- Listens to some servers, one after the other; what each has told is kept under its number. -/
def listenTo (m : Machine) (number : Nat) :
    List Launch → List (Nat × ChildEvent) × List Launch × Machine
  | [] => ([], [], m)
  | l :: ls =>
    let (events, l, m) := l.poll m true false
    let (more, ls, m) := listenTo m (number + 1) ls
    (events.map (number, ·) ++ more, l :: ls, m)

/-- Lets the processes go on and listens to the servers. -/
def listen (s : Station) : List (Nat × ChildEvent) × Station :=
  let (events, launches, m) := listenTo s.machine.settle 0 s.launches
  (events, { s with machine := m, launches := launches })

end Station

end Steward
