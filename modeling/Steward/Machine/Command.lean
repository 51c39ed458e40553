import Steward.Machine.Loading
import Steward.Machine.Utility

/-!
# Commands of a shell

How a shell carries out one command: its redirections, the commands that are part of the shell itself,
and programs, which run in a process of their own unless nothing follows them.
-/

namespace Steward

open Steward.Text.Utf8 (Bytes encode)
open Steward.Shell (Channel Channels Frame Script Redirect Simple)

namespace Machine

/-- The shell says what is wrong. -/
def complain (m : Machine) (pid : Nat) (sh : Shell) (line : Nat) (text : String) : Machine :=
  (m.output pid 2 (encode (sh.scope.name ++ s!": {line}: " ++ text ++ "\n").toList)).2

/-- Says what is wrong and ends the command with an exit code. -/
def failCommand (m : Machine) (pid : Nat) (sh : Shell) (line code : Nat) (text : String) : Machine :=
  (m.complain pid sh line text).setShell pid (sh.done code)

/-! ## Ending -/

/-- A script ends; the trap for that runs first. -/
def leave (m : Machine) (pid : Nat) (sh : Shell) (code : Nat) : Machine :=
  match (sh.trap? none).bind fun text => (Shell.parse text).toOption with
  | some script =>
    m.setShell pid { sh with
      traps := sh.traps.filter fun t => t.1.isSome
      control := .run script false
      stack := [.leave code] }
  | none => m.exitWith pid code

/-! ## Redirections -/

def setChannel (channels : Channels) (descriptor : Nat) (c : Channel) : Channels :=
  (descriptor, c) :: channels.filter (·.1 != descriptor)

/-- Opens a file to read from. -/
def openToRead (m : Machine) (p : Process) (path : String) : Except String (Channel × Machine) :=
  if path == "/dev/null" then .ok (.nowhere, m)
  else
    match (m.filesOf p).read path with
    | .ok bytes =>
      let (pipe, m) := m.addPipe { ready := bytes }
      .ok (.readEnd pipe, m)
    | .error _ => .error ("cannot open " ++ path ++ ": No such file")

/-- Opens a file to write to. -/
def openToWrite (m : Machine) (p : Process) (path : String) (truncate : Bool) :
    Except String (Channel × Machine) :=
  if path == "/dev/null" then .ok (.nowhere, m)
  else
    match (m.filesOf p).openForWriting path with
    | .ok (place, fs) => .ok (.file place, m.putFiles (if truncate then fs.change place fun _ => [] else fs))
    | .error .notFound => .error ("cannot create " ++ path ++ ": Directory nonexistent")
    | .error e => .error ("cannot create " ++ path ++ ": " ++ e.text)

/-- One redirection. -/
def redirect (m : Machine) (p : Process) (sh : Shell) (channels : Channels) (r : Redirect) :
    Except String (Channels × Machine) := do
  let target ← r.target.text sh.scope
  match r.direction with
  | .read =>
    let (c, m) ← m.openToRead p target
    return (setChannel channels r.descriptor c, m)
  | .write =>
    let (c, m) ← m.openToWrite p target true
    return (setChannel channels r.descriptor c, m)
  | .append =>
    let (c, m) ← m.openToWrite p target false
    return (setChannel channels r.descriptor c, m)
  | .duplicate =>
    if target == "-" then return (channels.filter (·.1 != r.descriptor), m)
    match (Text.decimal? target.toList).bind fun n => channels.lookup n with
    | some c => return (setChannel channels r.descriptor c, m)
    | none => throw (target ++ ": Bad file descriptor")

def redirectAll (m : Machine) (p : Process) (sh : Shell) :
    Channels → List Redirect → Except String (Channels × Machine)
  | channels, [] => .ok (channels, m)
  | channels, r :: rs => do
    let (channels, m) ← m.redirect p sh channels r
    m.redirectAll p sh channels rs

/-! ## Processes -/

/-- A process that goes on with a part of the script. -/
def fork (m : Machine) (p : Process) (sh : Shell) (channels : Channels) (script : Script) :
    Nat × Machine :=
  m.add { p with
    parent := p.pid, channels := channels, pending := [], body := .shell (sh.fork script) }

/-- The process of a program that a shell starts. A file that is no program is taken for a script. -/
def loadFor (m : Machine) (p : Process) (v : Variables) (pid : Nat) (name : String)
    (args : List String) : Except OsError Body := do
  let fs := m.filesOf p
  let path ← findProgram fs v name
  match m.load fs v pid path name args scriptDepth with
  | .error .badProgram => return shell fs v pid name (path :: args)
  | other => other

/-- Runs a program, in place of the shell if nothing follows. -/
def runProgram (m : Machine) (p : Process) (sh : Shell) (line : Nat) (v : Variables) (inPlace : Bool)
    (name : String) (args : List String) : Machine :=
  match m.loadFor p v (if inPlace then p.pid else m.nextPid) name args with
  | .error .notFound => m.failCommand p.pid sh line 127 (name ++ ": not found")
  | .error e => m.failCommand p.pid sh line 126 (name ++ ": " ++ e.text)
  | .ok body =>
    if inPlace then m.change p.pid ({ · with environ := v, pending := [], body := body })
    else
      let (child, m) := m.add { p with parent := p.pid, environ := v, pending := [], body := body }
      m.setShell p.pid { sh with control := .await [child] .foreground }

/-! ## Leaving loops and functions -/

def isLoop : Frame → Bool
  | .condition .. => true
  | .body .. => true
  | .each .. => true
  | _ => false

/-- What is left of the stack from the first frame on that `stops`, and the channels to go back to. -/
def unwind (stops : Frame → Bool) : List Frame → Option Channels → List Frame × Option Channels
  | [], channels => ([], channels)
  | f :: fs, channels =>
    if stops f then (f :: fs, channels)
    else
      unwind stops fs (match f with
        | .restore outer => some outer
        | _ => channels)

/-- Goes back to channels, if there are any to go back to. -/
def restoreChannels (m : Machine) (pid : Nat) : Option Channels → Machine
  | some channels => m.change pid ({ · with channels := channels })
  | none => m

/-- Leaves the innermost loop, or begins its next round. -/
def leaveLoop (m : Machine) (pid : Nat) (sh : Shell) (again : Bool) : Machine :=
  let (stack, channels) := unwind isLoop sh.stack none
  let stack := if again then stack else stack.drop 1
  (m.restoreChannels pid channels).setShell pid { sh.done 0 with stack := stack }

/-- Leaves the innermost function; outside of any, the script ends. -/
def leaveFunction (m : Machine) (pid : Nat) (sh : Shell) (code : Nat) : Machine :=
  let isCall : Frame → Bool
    | .call _ => true
    | _ => false
  match unwind isCall sh.stack none with
  | ([], _) => m.leave pid sh code
  | (stack, channels) =>
    (m.restoreChannels pid channels).setShell pid { sh.done code with stack := stack }

/-! ## Signals -/

/-- Sets what is done at some signals; `none` is the end of the script. -/
def setTrap (m : Machine) (pid : Nat) (sh : Shell) (action : Option String) (s : Option Signal) :
    Machine × Shell :=
  let others := sh.traps.filter (·.1 != s)
  let sh := match action with
    | some text => { sh with traps := (s, text) :: others }
    | none => { sh with traps := others }
  match s with
  | none => (m, sh)
  | some s =>
    (m.change pid fun p =>
      let ignored := p.ignored.filter (· != s)
      { p with ignored := if action == some "" then s :: ignored else ignored }, sh)

/-- The signal of a trap; the end counts as one. -/
def trapSignal? (text : String) : Option (Option Signal) :=
  if text.toUpper == "EXIT" || text == "0" then some none else (Signal.ofText? text).map some

def trap (m : Machine) (p : Process) (sh : Shell) (args : List String) : Machine :=
  let set (action : Option String) (names : List String) : Machine :=
    match names.find? fun n => (trapSignal? n).isNone with
    | some bad =>
      (m.output p.pid 2 (encode ("trap: " ++ bad ++ ": bad trap\n").toList)).2.setShell p.pid (sh.done 1)
    | none =>
      let (m, sh) := (names.filterMap trapSignal?).foldl
        (fun (m, sh) s => m.setTrap p.pid sh action s) (m, sh)
      m.setShell p.pid (sh.done 0)
  match args with
  | [] => m.setShell p.pid (sh.done 0)
  | "-" :: names => set none names
  | [name] => set none [name]
  | action :: names => set (some action) names

/-- The signal that a text names; `some none` is no signal at all, which only asks for the process. -/
def killSignal? (text : String) : Option (Option Signal) :=
  if text == "0" then some none else (Signal.ofText? text).map some

/-- Which signal `kill` sends to whom. -/
def killTargets : List String → Except String (Option Signal × List String)
  | "-s" :: name :: rest =>
    match killSignal? name with
    | some s => .ok (s, rest)
    | none => .error ("invalid signal number or name: " ++ name)
  | first :: rest =>
    match first.toList with
    | '-' :: c :: name =>
      match killSignal? (String.ofList (c :: name)) with
      | some s => .ok (s, rest)
      | none => .error ("Illegal option -" ++ String.singleton c)
    | _ => .ok (some .terminate, first :: rest)
  | [] => .ok (some .terminate, [])

/-- Sends a signal to some processes. -/
def killAll (m : Machine) (p : Process) (sh : Shell) (line : Nat) (s : Option Signal)
    (targets : List String) : Machine :=
  let m := m.setShell p.pid (sh.done 0)
  targets.foldl
    (fun m target =>
      match Text.decimal? target.toList with
      | none => m.failCommand p.pid sh line 2 ("kill: Illegal number: " ++ target)
      | some pid =>
        if (m.process? pid).isSome then
          match s with
          | some s => m.signal pid s
          | none => m
        else if (m.ends.lookup pid).isSome then m
        else m.failCommand p.pid sh line 1 "kill: No such process\n")
    m

def kill (m : Machine) (p : Process) (sh : Shell) (line : Nat) (args : List String) : Machine :=
  match killTargets args with
  | .ok (s, targets) => m.killAll p sh line s targets
  | .error message => m.failCommand p.pid sh line 2 ("kill: " ++ message)

/-! ## Commands of the shell itself -/

/-- Ends a command that has done its work with output to write. -/
def finishOutput (m : Machine) (p : Process) (sh : Shell) (line : Nat) (name : String) (e : Effect) :
    Machine :=
  let m := m.putFiles e.files
  let (written, m) := m.output p.pid 1 e.stdout
  if !written then m.failCommand p.pid sh line 1 (name ++ ": " ++ name ++ ": I/O error")
  else if e.stderr.isEmpty then m.setShell p.pid (sh.done e.code)
  else m.failCommand p.pid sh line e.code (Text.trimmedEnd e.stderr)

/-- A number that an argument gives, or else the current exit code. -/
def codeArgument (sh : Shell) : List String → Except String Nat
  | [] => .ok sh.scope.status
  | a :: _ =>
    match Text.decimal? a.toList with
    | some n => .ok n
    | none => .error ("Illegal number: " ++ a)

/-- Sets variables from arguments of the form `name=value`; a bare name keeps its value. -/
def assignArguments (sh : Shell) (args : List String) : Shell :=
  args.foldl
    (fun sh a =>
      let name := a.toList.takeWhile (· != '=')
      match a.toList.drop name.length with
      | _ :: value => sh.setVariable (String.ofList name) (String.ofList value)
      | [] => sh)
    sh

def argumentName (a : String) : String := String.ofList (a.toList.takeWhile (· != '='))

/-- Gives the words of a line to variables; the last one gets all that is left. -/
def assignLine (sh : Shell) : List String → List Char → Shell
  | [], _ => sh
  | [name], rest => sh.setVariable name (Text.trimmed (String.ofList rest))
  | name :: names, rest =>
    let rest := rest.dropWhile Shell.Fields.isSeparator
    let field := rest.takeWhile (!Shell.Fields.isSeparator ·)
    assignLine (sh.setVariable name (String.ofList field)) names (rest.drop field.length)

def changeDirectory (m : Machine) (p : Process) (sh : Shell) (line : Nat) (args : List String) :
    Machine :=
  let target := args.head?.getD ((sh.scope.environ.get? "HOME").getD "/")
  match (m.filesOf p).at? target with
  | some (place, .directory _) =>
    let sh := (sh.setVariable "OLDPWD" ((sh.scope.environ.get? "PWD").getD "")).setVariable "PWD"
      (Path.ofParts true place)
    (m.change p.pid ({ · with directory := place })).setShell p.pid (sh.done 0)
  | _ => m.failCommand p.pid sh line 2 ("cd: can't cd to " ++ target)

/-- The children of a process that nobody has asked about yet. -/
def childrenOf (m : Machine) (pid : Nat) : List Nat :=
  (m.processes.filter (·.parent == pid)).map (·.pid)

/-- A command of the shell itself; `none` if there is none of that name. -/
def builtin? (m : Machine) (p : Process) (sh : Shell) (line : Nat) (last : Bool) (name : String)
    (args : List String) : Option Machine :=
  let done (sh : Shell) : Machine := m.setShell p.pid (sh.done 0)
  let plain : Machine :=
    m.finishOutput p sh line name (utility (m.filesOf p) sh.environment name args)
  match name with
  | ":" => some (done sh)
  | "true" => some plain
  | "false" => some plain
  | "echo" => some plain
  | "printf" =>
    match args with
    | format :: rest =>
      let (bytes, faulty) := Shell.printf format rest
      some (m.finishOutput p sh line name
        { files := m.files, stdout := bytes, code := if faulty then 1 else 0 })
    | [] => some (m.failCommand p.pid sh line 2 "printf: usage: printf format [arg ...]")
  | "test" => some plain
  | "[" => some plain
  | "pwd" => some plain
  | "exit" =>
    some (match codeArgument sh args with
      | .ok code => m.leave p.pid sh code
      | .error message => (m.complain p.pid sh line ("exit: " ++ message)).leave p.pid sh 2)
  | "return" =>
    some (match codeArgument sh args with
      | .ok code => m.leaveFunction p.pid sh code
      | .error message => (m.complain p.pid sh line ("return: " ++ message)).leave p.pid sh 2)
  | "break" => some (m.leaveLoop p.pid sh false)
  | "continue" => some (m.leaveLoop p.pid sh true)
  | "shift" =>
    let n := ((args.head?.bind fun a => Text.decimal? a.toList)).getD 1
    some (done { sh with scope := { sh.scope with arguments := sh.scope.arguments.drop n } })
  | "set" =>
    some (match args with
      | "--" :: rest => done { sh with scope := { sh.scope with arguments := rest } }
      | flags :: _ =>
        match flags.toList with
        | '-' :: letters => done { sh with strict := sh.strict || letters.contains 'e' }
        | '+' :: letters => done { sh with strict := sh.strict && !letters.contains 'e' }
        | _ => done { sh with scope := { sh.scope with arguments := args } }
      | [] => done sh)
  | "export" =>
    some (done { assignArguments sh args with exported := sh.exported ++ args.map argumentName })
  | "local" => some (done (assignArguments sh args))
  | "unset" =>
    some (done (args.foldl
      (fun sh name => { sh with
        scope := { sh.scope with environ := sh.scope.environ.set name none } }) sh))
  | "umask" => some (done sh)
  | "cd" => some (m.changeDirectory p sh line args)
  | "trap" => some (m.trap p sh args)
  | "kill" => some (m.kill p sh line args)
  | "read" =>
    some (m.setShell p.pid { sh with
      control := .readLine (match operands args with
        | [] => ["REPLY"]
        | names => names) })
  | "wait" =>
    some (m.setShell p.pid { sh with
      control := match args.filterMap fun a => Text.decimal? a.toList with
        | [] => .await (m.childrenOf p.pid) .everything
        | pids => .await pids .background })
  | "eval" =>
    some (match Shell.parse (" ".intercalate args) with
      | .ok script => m.setShell p.pid { sh with control := .run script last }
      | .error e => m.failCommand p.pid sh line 2 e.message)
  | "exec" =>
    some (match args with
      | [] => done sh
      | name :: args =>
        match m.loadFor p sh.environment p.pid name args with
        | .ok body => m.change p.pid ({ · with environ := sh.environment, pending := [], body := body })
        | .error .notFound => (m.complain p.pid sh line ("exec: " ++ name ++ ": not found")).leave p.pid sh 127
        | .error e => (m.complain p.pid sh line ("exec: " ++ name ++ ": " ++ e.text)).leave p.pid sh 126)
  | _ => none

/-! ## Simple commands -/

/-- Gives variables their values, one after the other. -/
def assign (sh : Shell) : List (String × Shell.Word) → Except String Shell
  | [] => .ok sh
  | (name, w) :: rest => do assign (sh.setVariable name (← w.text sh.scope)) rest

/-- Whether the exit code of a script in the words is what the command ends with. -/
def hasValue (s : Simple) : Bool :=
  s.assignments.any fun a => a.2.any fun
    | .value _ _ => true
    | _ => false

/-- A command whose redirections are in place. -/
def runSimple (m : Machine) (p : Process) (sh : Shell) (s : Simple) (last : Bool) : Machine :=
  let expanded : Except String (List String × Shell) := do
    return (← Shell.expandWords sh.scope s.words, ← assign sh s.assignments)
  match expanded with
  | .error message => (m.complain p.pid sh s.line message).leave p.pid sh 2
  | .ok ([], assigned) =>
    m.setShell p.pid (assigned.done (if hasValue s then sh.scope.status else 0))
  | .ok (name :: args, assigned) =>
    match sh.functions.lookup name with
    | some body =>
      m.setShell p.pid { sh with
        scope := { sh.scope with arguments := args }
        control := .run body false
        stack := .call sh.scope.arguments :: sh.stack }
    | none =>
      match m.builtin? p sh s.line last name args with
      | some m => m
      | none =>
        let extra := s.assignments.map (·.1)
        let v := { assigned with exported := sh.exported ++ extra }.environment
        m.runProgram p sh s.line v (last && !sh.hasTraps) name args

/-- A command: first its redirections, which last as long as it runs. -/
def runCommand (m : Machine) (p : Process) (sh : Shell) (s : Simple) (last : Bool) : Machine :=
  if s.redirects.isEmpty then m.runSimple p sh s last
  else
    match m.redirectAll p sh p.channels s.redirects with
    | .error message => m.failCommand p.pid sh s.line 2 message
    | .ok (channels, m) =>
      let m := m.change p.pid ({ · with channels := channels })
      let stack := match s.words with
        | [w] => if w.bare? == some "exec" then sh.stack else .restore p.channels :: sh.stack
        | _ => .restore p.channels :: sh.stack
      m.setShell p.pid { sh with
        control := .run (.simple { s with redirects := [] }) last, stack := stack }

end Machine

end Steward
