import Steward.Machine.Command

/-!
# Steps of processes

One step of one process. A process that has to wait, for a moment, for input or for another process,
has none.
-/

namespace Steward

open Steward.Text.Utf8 (Bytes encode)
open Steward.Shell (Channels Frame Script Control)

namespace Machine

/-! ## Shells -/

/-- The shell begins a script. -/
def runScript (m : Machine) (p : Process) (sh : Shell) (script : Script) (last : Bool) : Machine :=
  let pid := p.pid
  let goOn (script : Script) (last : Bool) (frame : Frame) : Machine :=
    m.setShell pid { sh with control := .run script last, stack := frame :: sh.stack }
  match script with
  | .skip => m.setShell pid (sh.done 0)
  | .simple s => m.runCommand p sh s last
  | .sequence first second => goOn first false (.next second last)
  | .both first second => goOn first false (.ifSuccess second last)
  | .either first second => goOn first false (.ifFailure second last)
  | .negate body => goOn body false .negate
  | .background body =>
    let (child, m) := m.fork { p with ignored := .interrupt :: .quit :: p.ignored } sh
      (setChannel p.channels 0 .nowhere) body
    m.setShell pid { sh.done 0 with scope := { sh.scope with background := some child } }
  | .pipe first second =>
    let (pipe, m) := m.addPipe {}
    let (left, m) := m.fork p sh (setChannel p.channels 1 (.writeEnd pipe)) first
    let (right, m) := m.fork p sh (setChannel p.channels 0 (.readEnd pipe)) second
    m.setShell pid { sh with control := .await [left, right] .foreground }
  | .redirected line body redirects =>
    match m.redirectAll p sh p.channels redirects with
    | .error message => m.failCommand pid sh line 2 message
    | .ok (channels, m) =>
      (m.change pid ({ · with channels := channels })).setShell pid
        { sh with control := .run body false, stack := .restore p.channels :: sh.stack }
  | .subshell body =>
    if last && !sh.hasTraps then m.setShell pid { sh with control := .run body true }
    else
      let (child, m) := m.fork p sh p.channels body
      m.setShell pid { sh with control := .await [child] .foreground }
  | .branch condition yes no => goOn condition false (.branch yes no last)
  | .loop untilSuccess condition body => goOn condition false (.condition untilSuccess condition body 0)
  | .each name words body =>
    match words.elim (.ok sh.scope.arguments) (Shell.expandWords sh.scope) with
    | .error message => (m.complain pid sh 1 message).leave pid sh 2
    | .ok fields => m.setShell pid { sh.done 0 with stack := .each name fields body :: sh.stack }
  | .arm word patterns body rest =>
    let chosen : Except String Bool := do
      let text ← word.text sh.scope
      return (← patterns.mapM (Shell.Word.pattern sh.scope)).any (·.fits text.toList)
    match chosen with
    | .error message => (m.complain pid sh 1 message).leave pid sh 2
    | .ok true => m.setShell pid { sh with control := .run body last }
    | .ok false => m.setShell pid { sh with control := .run rest last }
  | .define name body => m.setShell pid { sh.done 0 with functions := (name, body) :: sh.functions }

/-- A script whose words need the output of another one waits for it first. -/
def beginScript (m : Machine) (p : Process) (sh : Shell) (script : Script) (last : Bool) : Machine :=
  let sh := { sh with excused := false }
  match script.substitution? with
  | none => m.runScript p sh script last
  | some text =>
    match Shell.parse text with
    | .error e => (m.complain p.pid sh 1 e.message).leave p.pid sh 2
    | .ok inner =>
      let (pipe, m) := m.addPipe { hostReads := true }
      let (child, m) := m.fork p sh (setChannel p.channels 1 (.writeEnd pipe)) inner
      m.setShell p.pid { sh with control := .collect pipe child script last }

/-- A command has ended: what comes behind it. -/
def popFrame (m : Machine) (p : Process) (sh : Shell) (code : Nat) : Machine :=
  let sh := { sh with scope := { sh.scope with status := code } }
  match sh.stack, sh.stopsAt code with
  | [], _ => m.leave p.pid sh code
  | _, true => m.leave p.pid sh code
  | frame :: stack, false =>
    let sh := { sh with stack := stack }
    let excuse : Shell := { sh with excused := true }
    let run (script : Script) (last : Bool) : Machine :=
      m.setShell p.pid { sh with control := .run script last }
    let round (untilSuccess : Bool) (condition body : Script) (code : Nat) : Machine :=
      m.setShell p.pid { sh with
        control := .run condition false
        stack := .condition untilSuccess condition body code :: stack }
    match frame with
    | .next rest last => run rest last
    | .ifSuccess rest last => if code == 0 then run rest last else m.setShell p.pid (excuse.done code)
    | .ifFailure rest last => if code == 0 then m.setShell p.pid (sh.done code) else run rest last
    | .negate => m.setShell p.pid (excuse.done (if code == 0 then 1 else 0))
    | .branch yes no last => if code == 0 then run yes last else run no last
    | .condition untilSuccess condition body before =>
      if (code == 0) != untilSuccess then
        m.setShell p.pid { sh with
          control := .run body false, stack := .body untilSuccess condition body :: stack }
      else m.setShell p.pid (sh.done before)
    | .body untilSuccess condition body => round untilSuccess condition body code
    | .each name (field :: rest) body =>
      m.setShell p.pid { sh.setVariable name field with
        control := .run body false, stack := .each name rest body :: stack }
    | .each _ [] _ => m.setShell p.pid (sh.done code)
    | .restore channels =>
      (m.change p.pid ({ · with channels := channels })).setShell p.pid (sh.done code)
    | .call arguments =>
      m.setShell p.pid { sh.done code with scope := { sh.scope with arguments := arguments } }
    | .resume (some (script, last)) before =>
      m.setShell p.pid { sh with
        control := .run script last, scope := { sh.scope with status := before } }
    | .resume none before => m.setShell p.pid (sh.done before)
    | .leave before => m.exitWith p.pid before

/-- The exit code that a shell sees. -/
def exitCode (e : Exit) : Nat :=
  match e.code, e.signal with
  | some code, _ => code.toNat
  | none, some signal => 128 + signal.toNat
  | none, none => 0

/-- What the shell says about a command that a signal has ended. -/
def obituary (e : Exit) : Bytes :=
  match e.signal.bind fun n => Signal.all.find? fun s => (s.number : Int) == n with
  | some s => if s == .interrupt || s == .brokenPipe then [] else encode (s.description ++ "\n").toList
  | none => []

/-- Whether a process still exists. -/
def exists? (m : Machine) (pid : Nat) : Bool := (m.process? pid).isSome

/-- Takes note of the ends of processes; the last one gives the exit code. -/
def takeEnds (m : Machine) : List Nat → Nat × Option Exit × Machine
  | [] => (0, none, m)
  | [pid] =>
    match m.takeEnd pid with
    | (some e, m) => (exitCode e, some e, m)
    | (none, m) => (127, none, m)
  | pid :: pids => (m.takeEnd pid).2.takeEnds pids

/-- Goes on behind a wait, if it is over. -/
def stepAwait (m : Machine) (p : Process) (sh : Shell) (pids : List Nat) (why : Shell.Waiting) :
    Option Machine :=
  match why, p.pending with
  | .background, s :: _ => some (m.setShell p.pid (sh.done (128 + s.number)))
  | .everything, s :: _ => some (m.setShell p.pid (sh.done (128 + s.number)))
  | _, _ =>
    if pids.any m.exists? then none
    else
      let (code, exit, m) := m.takeEnds pids
      match why, exit with
      | .everything, _ => some (m.setShell p.pid (sh.done 0))
      | _, some e => some ((m.output p.pid 2 (obituary e)).2.setShell p.pid (sh.done code))
      | _, none => some (m.setShell p.pid (sh.done code))

/-- The text of an output: newlines at its end do not count. -/
def outputText (bytes : Bytes) : String :=
  String.ofList (Text.dropEndWhile (· == '\n') (Text.Utf8.decodeLossy (bytes.filter (· != 0))))

/-- The trap of the first signal that waits. -/
def runTrap (m : Machine) (p : Process) (sh : Shell) (s : Signal) : Machine :=
  let m := m.change p.pid fun p => { p with pending := p.pending.drop 1 }
  match (sh.trap? (some s)).bind fun text => (Shell.parse text).toOption with
  | none => m
  | some script =>
    let frame : Frame := match sh.control with
      | .run rest last => .resume (some (rest, last)) sh.scope.status
      | .status code => .resume none code
      | _ => .resume none sh.scope.status
    m.setShell p.pid { sh with control := .run script false, stack := frame :: sh.stack }

/-- One step of a shell. Traps run between two commands. -/
def stepShell (m : Machine) (p : Process) (sh : Shell) : Option Machine :=
  match sh.control, p.pending with
  | .run _ _, s :: _ => some (m.runTrap p sh s)
  | .status _, s :: _ => some (m.runTrap p sh s)
  | .run script last, [] => some (m.beginScript p sh script last)
  | .status code, [] => some (m.popFrame p sh code)
  | .await pids why, _ => m.stepAwait p sh pids why
  | .collect pipe child script last, _ =>
    if m.hasWriter pipe || m.exists? child then none
    else
      let (bytes, m) := m.drain pipe
      let (code, _, m) := m.takeEnds [child]
      some (m.setShell p.pid { sh with
        scope := { sh.scope with status := code }
        control := .run (script.fill (outputText bytes)) last })
  | .readLine names, _ =>
    match m.inputLine p.pid 0 with
    | (none, _) => none
    | (some (bytes, complete), m) =>
      let sh := assignLine sh names (Text.Utf8.decodeLossy bytes)
      some (m.setShell p.pid (sh.done (if complete then 0 else 1)))

/-! ## Programs -/

/-- Copies files to the output, one step for each piece. -/
def stepCopy (m : Machine) (p : Process) (files : List String) : Option Machine :=
  let write (m : Machine) (bytes : Bytes) : Machine :=
    match m.output p.pid 1 bytes with
    | (true, m) => m
    | (false, m) =>
      ((m.output p.pid 2 (encode "cat: write error: Broken pipe\n".toList)).2).setBody p.pid
        (.complain "" 1)
  match files with
  | [] => some (m.exitWith p.pid 0)
  | "-" :: rest =>
    match m.input p.pid 0 with
    | (.wait, _) => none
    | (.ended, m) => some (m.setBody p.pid (.copy rest))
    | (.bytes bytes, m) => some (write m bytes)
  | path :: rest =>
    match (m.filesOf p).read path with
    | .ok bytes => some (write (m.setBody p.pid (.copy rest)) bytes)
    | .error e =>
      let body : Body := if rest.isEmpty then .complain "" 1 else .copy rest
      some ((m.output p.pid 2 (encode ("cat: " ++ path ++ ": " ++ e.text ++ "\n").toList)).2.setBody
        p.pid body)

/-- A shell takes its script from the input once that has ended. -/
def stepGather (m : Machine) (p : Process) (sh : Shell) : Option Machine :=
  match p.channel? 0 with
  | some (.readEnd pipe) =>
    if m.hasWriter pipe then none
    else
      let (bytes, m) := m.drain pipe
      some (m.setBody p.pid
        (shellBody sh.scope (String.ofList (Text.Utf8.decodeLossy bytes)) false sh.strict))
  | _ => some (m.exitWith p.pid 0)

/-- One step of a process; `none` if it has to wait. -/
def step (m : Machine) (p : Process) : Option Machine :=
  match p.body with
  | .shell sh => m.stepShell p sh
  | .gather sh => m.stepGather p sh
  | .sleep none => none
  | .sleep (some moment) => if moment ≤ m.now then some (m.exitWith p.pid 0) else none
  | .copy files => m.stepCopy p files
  | .utility name args =>
    let e := utility (m.filesOf p) p.environ name args
    let m := m.putFiles e.files
    let m := (m.output p.pid 1 e.stdout).2
    let m := (m.output p.pid 2 (encode e.stderr.toList)).2
    some (if m.exists? p.pid then m.exitWith p.pid e.code else m)
  | .complain text code =>
    let m := if text.isEmpty then m else (m.output p.pid 2 (encode (text ++ "\n").toList)).2
    some (if m.exists? p.pid then m.exitWith p.pid code else m)

/-! ## Letting processes run -/

/-- Runs a process until it has to wait or has ended, for at most so many steps; gives what is left of
them. -/
def runProcess (pid : Nat) : Nat → Machine → Nat × Machine
  | 0, m => (0, m)
  | steps + 1, m =>
    match m.process? pid with
    | none => (steps + 1, m)
    | some p =>
      match m.step p with
      | none => (steps + 1, m)
      | some m => runProcess pid steps m

/-- Whether a process can go on. -/
def canGoOn (m : Machine) : Bool := m.processes.any fun p => (m.step p).isSome

/-- Runs every process in turn until all have to wait, for at most so many steps and turns. -/
def runAll : Nat → Nat → Machine → Machine
  | 0, _, m => m
  | turns + 1, steps, m =>
    let (left, m) := (m.processes.map (·.pid)).foldl (fun (left, m) pid => runProcess pid left m) (steps, m)
    if left == steps || left == 0 then m else runAll turns left m

/-- How many steps processes take before the host looks at what they have done. -/
def burst : Nat := 100000

/-- Lets everything go on that can. -/
def settle (m : Machine) : Machine := runAll burst burst m

/-- The next moment that a process waits for. -/
def nextMoment? (m : Machine) : Option Nat :=
  (m.processes.filterMap fun p =>
    match p.body with
    | .sleep moment => moment
    | _ => none).min?

end Machine

end Steward
