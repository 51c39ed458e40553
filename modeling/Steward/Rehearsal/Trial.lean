import Steward.Machine.Launch

/-!
# Trials of single processes

One command or one server on a machine of its own. Time passes only when every process waits, and then
up to the next moment that one of them waits for.
-/

namespace Steward.Rehearsal

/-- How many rounds a trial takes at most. -/
def rounds : Nat := 100000

/-- Lets the machine run, and time pass, until a condition holds or nothing can happen any more. -/
def runUntil (done : Machine → Bool) (limit : Nat) : Nat → Machine → Machine
  | 0, m => m
  | fuel + 1, m =>
    let m := m.settle
    if done m then m
    else if m.canGoOn then runUntil done limit fuel m
    else
      match m.nextMoment? with
      | some moment => if moment ≤ limit then runUntil done limit fuel { m with now := moment } else m
      | none => m

/-- How long a trial may take, in milliseconds. -/
def trialTime : Nat := 3600000

/-- Runs a command to its end; `none` if it never ends. `statusLost` if the system keeps no exit codes. -/
def runErrand (m : Machine) (v : Variables) (program : String) (args : List String)
    (statusLost : Bool) : Option (Except Failure CommandOutput) :=
  match Errand.start m v program args with
  | .error e => some (.error e)
  | .ok (e, m) =>
    e.result? (runUntil (fun m => (e.result? m statusLost).isSome) trialTime rounds m) statusLost

/-! ## Servers -/

/-- What is done to a server while it runs. -/
structure Treatment where
  /-- what is written to its input, if that is handed out -/
  stdin : String := ""
  signal : Option Signal := none
  /-- the line to wait for before the signal is sent; at once if there is none -/
  signalAfter : Option String := none
  statusLost : Bool := false
  deriving Repr, DecidableEq

/-- A trial in progress and, at the end, its result. -/
structure Trial where
  launch : Launch
  /-- what was told, earliest first -/
  events : List ChildEvent := []
  signalled : Option (Except Failure Unit) := none

namespace Trial

def stdout (t : Trial) : List String := t.events.filterMap fun
  | .stdout line => some line
  | _ => none

def stderr (t : Trial) : List String := t.events.filterMap fun
  | .stderr line => some line
  | _ => none

def errors (t : Trial) : List String := t.events.filterMap fun
  | .error reason => some reason
  | _ => none

def exit? (t : Trial) : Option Exit := t.events.findSome? fun
  | .exited exit => some exit
  | _ => none

/-- Sends the signal of the treatment. -/
def sendSignal (t : Trial) (m : Machine) (s : Signal) : Trial × Machine :=
  let (result, m) := m.deliver t.launch.pid s
  ({ t with signalled := some result }, m)

/-- Writes to the input that was handed out and closes it. -/
def feed (m : Machine) (l : Launch) (text : String) : Machine :=
  match l.streams with
  | some (stdin, _) => (m.hostWrite stdin (Text.Utf8.encode text.toList)).stopWriting stdin
  | none => m

/-- Whether the output that was handed out has come to its end. -/
def outputEnded (m : Machine) (l : Launch) : Bool :=
  match l.streams with
  | some (_, out) => !m.hasWriter out
  | none => true

/-- Whether the line that the signal waits for has come. -/
def isDue (t : Trial) (c : Treatment) : Bool :=
  t.signalled.isNone && c.signalAfter.any t.stdout.contains

/-- Listens until the exit. -/
def listen (c : Treatment) : Nat → Trial → Machine → Trial × Machine
  | 0, t, m => (t, m)
  | fuel + 1, t, m =>
    let m := m.settle
    let (events, launch, m) := t.launch.poll m true c.statusLost
    let t := { t with launch := launch, events := t.events ++ events }
    match c.signal, t.isDue c with
    | some s, true =>
      let (t, m) := t.sendSignal m s
      listen c fuel t m
    | _, _ =>
      if t.exit?.isSome && outputEnded m launch then (t, m)
      else if m.canGoOn || !events.isEmpty then listen c fuel t m
      else
        match m.nextMoment? with
        | some moment => listen c fuel t { m with now := moment }
        | none => (t, m)

/-- The whole output that was handed out. -/
def handedOut (m : Machine) (l : Launch) : Option String :=
  l.streams.map fun (_, out) => String.ofList (Text.Utf8.decodeLossy (m.pipeBytes out))

/-- Launches a server and sees what becomes of it. -/
def run (m : Machine) (v : Variables) (spec : LaunchSpec) (c : Treatment) :
    Except Failure (Trial × Machine) :=
  match Launch.start m v spec with
  | .error e => .error (Launch.refusal spec e)
  | .ok (launch, m) =>
    let m := m.settle
    let t : Trial := { launch := launch }
    let (t, m) := match c.signal, c.signalAfter with
      | some s, none => t.sendSignal m s
      | _, _ => (t, m)
    .ok (listen c rounds t (feed m launch c.stdin))

/-- Lets a server run that nobody listens to, until a file is there or the time is over. -/
def ignore (path : String) (limit : Nat) : Nat → Launch → Machine → Bool
  | 0, _, m => m.files.exists? path
  | fuel + 1, l, m =>
    let m := m.settle
    let (_, l, m) := l.poll m false false
    if m.files.exists? path then true
    else if m.canGoOn then ignore path limit fuel l m
    else
      match m.nextMoment? with
      | some moment => if moment ≤ limit then ignore path limit fuel l { m with now := moment } else false
      | none => false

/-- How long a server that nobody listens to is watched, in milliseconds. -/
def watchTime : Nat := 4000

/-- Launches a server that nobody listens to; tells whether it made the file in time. -/
def abandon (m : Machine) (v : Variables) (spec : LaunchSpec) (path : String) : Except Failure Bool :=
  match Launch.start m v spec with
  | .error e => .error (Launch.refusal spec e)
  | .ok (l, m) => .ok (ignore path watchTime rounds l m)

end Trial

end Steward.Rehearsal
