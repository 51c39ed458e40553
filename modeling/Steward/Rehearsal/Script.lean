import Steward.Port
import Steward.World

/-!
# Scripted collaborators

A world outside that follows a script: every answer is laid down beforehand. It is what the supervisor
is rehearsed against.
-/

namespace Steward.Rehearsal

/-- The answer to a prompt: at once, or only when it is given later. -/
inductive Reply where
  | choice (c : Option String)
  | hold
  deriving Repr, DecidableEq

/-- What became of a prompt. -/
inductive PromptState where
  | held
  | answered (choice : Option String)
  /-- nobody waits for it any more -/
  | gone
  deriving Repr, DecidableEq

/-- The caller of a prompt goes away; an answer that is there already stays. -/
def PromptState.leave : PromptState → PromptState
  | .held => .gone
  | p => p

def defaultPath : String := "/opt/go/bin/mcpgo"

def defaultVersion : CommandOutput := { stdout := "\x7b\"Main\": \x7b\"Version\": \"v1.0.0\"\x7d\x7d" }

structure Script where
  answers : List Reply := []
  toolPath : Option String := some defaultPath
  /-- where the tool is once an install command succeeds -/
  installPath : Option String := some defaultPath
  installResults : List (Except Failure CommandOutput) := []
  versionResult : Except Failure CommandOutput := .ok defaultVersion
  tip : Except Failure String := .ok "feedface00"
  tags : Except Failure (List Version.Tag) := .ok []
  options : ServerOptions := {}
  configError : Option Failure := none
  spawnError : Option Failure := none
  terminateError : Option Failure := none
  killError : Option Failure := none
  exitOnTerminate : Option Exit := none
  ignoreKill : Bool := false
  installer : Option Tool.InstallOutcome := none
  /-- ports that other programs use -/
  occupied : List Nat := []
  sockets : Bool := true
  /-- ports that were handed out because the preferred one was not to be had -/
  ephemeral : List Nat := []
  nextPid : Nat := 4000
  prompts : List PromptState := []
  /-- held prompts that have not been answered, oldest first -/
  waiting : List Nat := []
  results : List (Except Failure CommandOutput) := []

namespace Script

/-- Where ports are handed out from. -/
def firstEphemeral : Nat := 41357

/-- The first port from `port` on that nobody uses. -/
def freePort (occupied : List Nat) (port : Nat) : Nat → Nat
  | 0 => port
  | tries + 1 => if occupied.contains port then freePort occupied (port + 1) tries else port

def isFree (s : Script) (port : Nat) : Bool := s.sockets && !s.occupied.contains port

/-- The ports as the script has them. -/
def ports (s : Script) : Port.Sockets where
  isFree := s.isFree
  handOut :=
    if s.sockets then .ok (freePort s.occupied firstEphemeral s.occupied.length) else .error .tooManyFiles

/-- The preferred port if it is free, else one that is. -/
def negotiatePort (s : Script) (preferred : Nat) : Except Failure Nat × Script :=
  match Port.negotiate s.ports preferred with
  | .ok port =>
    (.ok port, if s.ports.grants preferred then s else { s with ephemeral := port :: s.ephemeral })
  | .error e => (.error e, s)

def result {α : Type} (e : Option Failure) (a : α) : Except Failure α :=
  match e with
  | some e => .error e
  | none => .ok a

/-- The child exits on a termination signal if the script says so. -/
def terminate (s : Script) : Delivery :=
  match s.terminateError with
  | some e => { result := .error e }
  | none => { result := .ok (), exit := s.exitOnTerminate }

def kill (s : Script) : Delivery :=
  match s.killError with
  | some e => { result := .error e }
  | none => { result := .ok (), exit := if s.ignoreKill then none else some { signal := some 9 } }

/-- Whether the last but one argument says `install`. -/
def isInstall (args : List String) : Bool :=
  match args.reverse with
  | _ :: word :: _ => word == "install"
  | _ => false

/-- Where the tool is behind an install command. -/
def afterInstall (s : Script) : Except Failure CommandOutput → Script
  | .ok output =>
    if output.success then { s with toolPath := s.installPath.orElse fun _ => s.toolPath } else s
  | .error _ => s

/-- The result of a command. -/
def command (s : Script) (args : List String) : Except Failure CommandOutput × Script :=
  if isInstall args then
    match s.installResults with
    | r :: rest => (r, { s with installResults := rest }.afterInstall r)
    | [] => (.ok {}, s.afterInstall (.ok {}))
  else (s.versionResult, s)

/-- Opens a prompt. -/
def openPrompt (s : Script) : Nat × Script :=
  let ticket := s.prompts.length
  match s.answers with
  | [] => (ticket, { s with prompts := s.prompts ++ [.answered none] })
  | .choice c :: rest => (ticket, { s with answers := rest, prompts := s.prompts ++ [.answered c] })
  | .hold :: rest =>
    (ticket, { s with
      answers := rest, prompts := s.prompts ++ [.held], waiting := s.waiting ++ [ticket] })

def answer : (q : Query) → Script → q.Answer × Script
  | .locate, s => (s.toolPath, s)
  | .readOptions, s => (result s.configError s.options, s)
  | .negotiatePort preferred, s => s.negotiatePort preferred
  | .spawn _, s =>
    match s.spawnError with
    | some e => (.error e, s)
    | none => (.ok s.nextPid, { s with nextPid := s.nextPid + 1 })
  | .terminate _ _, s => (s.terminate, s)
  | .kill _ _, s => (s.kill, s)
  | .notify _ _, s => ((), s)
  | .prompt _ _ _, s => s.openPrompt
  | .progressStarted _, s => ((), s)
  | .progressFinished _, s => ((), s)
  | .command _ args, s =>
    let (r, s) := s.command args
    (s.results.length, { s with results := s.results ++ [r] })
  | .tipCommit, s => (s.tip, s)
  | .tags, s => (s.tags, s)
  | .write _ _ _, s => ((), s)
  | .closeOutput, s => ((), s)
  | .hostInstall _, s => (s.installer, s)

def reply? (s : Script) (ticket : Nat) : Option (Option String) :=
  match s.prompts[ticket]? with
  | some (.answered c) => some c
  | _ => none

def forget (ticket : Nat) (s : Script) : Script :=
  { s with prompts := s.prompts.modify ticket PromptState.leave }

/-- The answer that comes later reaches the prompt, or its caller is gone, or there is none. -/
inductive Reach where
  | delivered
  | gone
  | noPrompt
  deriving Repr, DecidableEq

/-- Answers the oldest held prompt. -/
def answerHeld (s : Script) (choice : Option String) : Reach × Script :=
  match s.waiting with
  | [] => (.noPrompt, s)
  | ticket :: rest =>
    match s.prompts[ticket]? with
    | some .held =>
      (.delivered, { s with
        waiting := rest, prompts := s.prompts.modify ticket fun _ => .answered choice })
    | _ => (.gone, { s with waiting := rest })

/-- The script as a world outside. -/
def environment : Environment Script where
  answer := answer
  reply? := reply?
  result? s ticket := s.results[ticket]?
  forget := forget

end Script

end Steward.Rehearsal
