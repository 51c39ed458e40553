import Steward.Supervisor.Calls
import Steward.Update.Offer

/-!
# Activation

What the host calls: it activates the service, which starts the server and begins an update check on the
side, and deactivates it, which ends both. At most one update check is current; a new one takes the
place of the old one and cancels it.
-/

namespace Steward.Activation

open Steward.Program (perform query write)

/-- Begins an update check in the background. -/
def beginCheck : Program Unit := do
  let task ← perform .spawnCheck
  match ← perform (.swapCheck task) with
  | some previous => perform (.cancelCheck previous)
  | none => return ()

def activate (s : Service) : Program Supervisor.StartOutcome := do
  write .extension .info
    ("[Lifecycle] Activating extension \"" ++ defaultServerName ++ "\"...")
  let outcome ← Supervisor.start s
  if s.checkOnActivation then beginCheck
  return outcome

/-- The result of the current update check; nothing if there is none or it was cancelled. Only one
caller gets it. -/
def waitForUpdateCheck : Program (Option Update.Check) := do
  match ← perform .takeCheck with
  | none => return none
  | some task => perform (.awaitCheck task)

def deactivate (s : Service) : Program Unit := do
  write .extension .info "[Lifecycle] Deactivating extension..."
  match ← perform .takeCheck with
  | none => pure ()
  | some task =>
    perform (.cancelCheck task)
    discard (perform (.awaitCheck task))
  Supervisor.shutdown s.shutdownGrace
  query .closeOutput

/-- What a command did. -/
inductive CommandOutcome where
  | start (outcome : Supervisor.StartOutcome)
  | stop (outcome : Supervisor.StopOutcome)
  deriving Repr, DecidableEq

def execute (s : Service) : ServerCommand → Program CommandOutcome
  | .start => do return .start (← Supervisor.start s)
  | .stop => do return .stop (← Supervisor.stop)
  | .restart => do return .start (← Supervisor.restart s)

end Steward.Activation
