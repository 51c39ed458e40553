import Steward.Tool.Installer

/-!
# Starting and stopping the server

The calls of the supervisor. The state is never held while the user is asked, the tool is installed or a
process is started, so the exit of a child can fall between any two steps of a call.
-/

namespace Steward.Supervisor

open Steward.Program (perform query notify write)

/-! ## Starting -/

/-- The path of the tool, installing it first if it is missing and the user agrees. -/
def resolveProgram (s : Service) : Program (Except StartOutcome String) := do
  match ← query .locate with
  | some path => return .ok path
  | none =>
    match ← Tool.install s with
    | .installed =>
      match ← query .locate with
      | some path => return .ok path
      | none =>
        let reason := s.tool ++ " was installed but could not be found on PATH."
        notify .error reason
        return .error (.failed reason)
    | .cancelled => return .error .installCancelled
    | .failed reason => return .error (.failed reason)

/-- What a start launches: the process and, if it listens, the port. -/
structure Plan where
  spec : LaunchSpec
  port : Option Nat
  deriving Repr, DecidableEq

def verboseArg (o : ServerOptions) : String := "--verbose=" ++ (if o.verbose then "true" else "false")

def Plan.stdio (path : String) (o : ServerOptions) : Plan := ⟨⟨path, [verboseArg o], .stdio⟩, none⟩

def Plan.http (path : String) (o : ServerOptions) (port : Nat) : Plan :=
  ⟨⟨path, [s!"--port={port}", verboseArg o], .http⟩, some port⟩

/-- What is published once the planned process runs. -/
def Plan.definition (s : Service) (p : Plan) : Definition :=
  match p.port with
  | some port => .onPort s.serverName (toString port)
  | none => .stdio s.serverName p.spec.program p.spec.args

def announcement : Definition → String
  | .http _ url => "[Server] MCP serves Streamable HTTP at: " ++ url
  | .stdio .. => "[Server] MCP serves over stdio"

/-- Ends a start that has failed. -/
def giveUp (outcome : StartOutcome) (reason : String) : Program StartOutcome := do
  perform (.abortStart reason)
  return outcome

/-- Starts the planned process and publishes it. -/
def launchPlan (s : Service) (p : Plan) : Program StartOutcome := do
  write .server .info ("[Server] Starting " ++ s.tool ++ "...")
  match ← perform (.spawn p.spec) with
  | .error e =>
    write .server .error ("[Server] Failed to start server process: " ++ e.message)
    notify .error "Failed to start server. Check the output log."
    giveUp (.failed e.message) e.message
  | .ok (child, pid) =>
    let definition := p.definition s
    match ← perform (.register ⟨child, pid, p.spec.transport == .stdio⟩ definition) with
    | .error refusal => do
      discard (query (.kill child pid))
      return .failed refusal.failure.message
    | .ok () =>
      perform (.observe child pid)
      write .server .info (announcement definition)
      perform .announceChange
      return .started definition

/-- Reads the options, once for each start, and launches what they ask for. -/
def launchAt (s : Service) (path : String) : Program StartOutcome := do
  match ← query .readOptions with
  | .error e =>
    let reason := "Failed to read configuration: " ++ e.message
    notify .error reason
    giveUp (.failed reason) reason
  | .ok options =>
    if options.enableStreamableHttp then
      match ← query (.negotiatePort options.port) with
      | .error e =>
        notify .error ("Failed to start server: " ++ e.message)
        giveUp (.failed e.message) e.message
      | .ok port => launchPlan s (.http path options port)
    else launchPlan s (.stdio path options)

/-- The part of a start behind its gate. -/
def launch (s : Service) : Program StartOutcome := do
  match ← resolveProgram s with
  | .error outcome => giveUp outcome outcome.label
  | .ok path => launchAt s path

def start (s : Service) : Program StartOutcome := do
  match ← perform .beginStart with
  | .running d =>
    notify .info "Server is already running."
    return .alreadyRunning d
  | .busy => return .busy
  | .refused refusal => return .failed refusal.failure.message
  | .open => launch s

/-! ## Stopping -/

def stop : Program StopOutcome := do
  match ← perform .stop with
  | .notRunning =>
    notify .info "Server is not running."
    return .notRunning
  | .alreadyStopping => return .alreadyStopping
  | .refused refusal => return .failed refusal.failure.message
  | .delivered =>
    notify .info "Server stopped."
    return .signalled
  | .undelivered e =>
    notify .warning "Failed to stop the server."
    return .failed e.message

/-- Waits for the exit of a child; tells whether it came in time. -/
def waitExited (child grace : Nat) : Program Bool := do
  perform (.awaitExit child (← perform (.deadline grace)))

/-- Gives the child the grace to go, then kills it and waits once more. -/
def awaitExitOrKill (child grace : Nat) : Program Bool := do
  if ← waitExited child grace then return true
  perform .killCurrent
  waitExited child grace

/-- Stops the server, waits until the old process is gone and starts again. -/
def restart (s : Service) : Program StartOutcome := do
  match ← perform .restartTarget with
  | none => start s
  | some child =>
    match ← stop with
    | .failed reason => return .failed reason
    | _ =>
      if ← awaitExitOrKill child s.stopGrace then start s
      else
        let reason := s.tool ++ " did not exit, not restarting."
        notify .error reason
        return .failed reason

/-- Waits for the current child to go; tells whether none is left. -/
def waitForExit (timeout : Nat) : Program Bool := do
  match ← perform .currentChild with
  | none => return true
  | some child => waitExited child timeout

/-- Stops for good. -/
def shutdown (grace : Nat) : Program Unit := do
  match ← perform .currentChild with
  | none => return ()
  | some child =>
    if (← perform .readState).isRunning then discard stop
    discard (awaitExitOrKill child grace)

/-! ## Observing -/

/-- Deals with the exit of a child. -/
def handleExit (s : Service) (pid : Nat) (exit : Exit) : Program Unit := do
  match ← perform (.recordExit pid exit) with
  | .error _ => return ()
  | .ok t =>
    if t.changed then
      if t.old.isRunning then
        notify .error (s.tool ++ " exited unexpectedly (" ++ exit.display ++ "). Check the output log.")
      if t.effects.contains .definitionChanged then perform .announceChange

/-- The end of a child's life: the exit is written and dealt with before anyone hears of it. -/
def conclude (s : Service) (child pid : Nat) (exit : Exit) : Program Unit := do
  write .server .info ("[Server] Process exited with " ++ exit.display ++ ".")
  handleExit s pid exit
  perform (.raiseExited child)

/-- Takes one event of a child; tells whether it was the last. -/
def observeOnce (s : Service) (child pid : Nat) : Program Bool := do
  match ← perform (.nextEvent child) with
  | some (.stdout line) =>
    write .server .stdout line
    return false
  | some (.stderr line) =>
    write .server .stderr line
    return false
  | some (.error reason) =>
    write .server .error ("[Server] " ++ reason)
    notify .error "Server process reported an error. Check the output log."
    return false
  | some (.exited exit) =>
    conclude s child pid exit
    return true
  | none =>
    conclude s child pid {}
    return true

end Steward.Supervisor
