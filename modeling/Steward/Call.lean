import Steward.World

/-!
# Calls

The calls that the host can make, as programs of tasks.
-/

namespace Steward

inductive Call where
  | start
  | stop
  | restart
  | shutdown (grace : Nat)
  | waitForExit (timeout : Nat)
  | takeStreams
  | activate
  | deactivate
  | execute (text : String)
  | waitForUpdateCheck
  | checkForUpdates
  | runUpdate
  deriving Repr, DecidableEq

namespace Call

def outcome (s : Service) : Call → Program Outcome
  | .start => do return .start (← Supervisor.start s)
  | .stop => do return .stop (← Supervisor.stop)
  | .restart => do return .start (← Supervisor.restart s)
  | .shutdown grace => do
    Supervisor.shutdown grace
    return .nothing
  | .waitForExit timeout => do return .flag (← Supervisor.waitForExit timeout)
  | .takeStreams => do return .flag (← Program.perform .takeStreams)
  | .activate => do return .start (← Activation.activate s)
  | .deactivate => do
    Activation.deactivate s
    return .nothing
  | .execute text =>
    match ServerCommand.parse text with
    | .ok command => do return .command (← Activation.execute s command)
    | .error unknown => return .unknownCommand unknown
  | .waitForUpdateCheck => do return .check (← Activation.waitForUpdateCheck)
  | .checkForUpdates => do return .check (some (← Update.check s))
  | .runUpdate => do return .install (← Update.runUpdate s)

/-- The program of a task that makes the call. -/
def program (s : Service) (c : Call) : Program Flow := do return .finish (← c.outcome s)

end Call

/-- The observer takes events until the last; the update check runs once. -/
def Service.roles (s : Service) : Roles where
  observer child pid := do
    if ← Supervisor.observeOnce s child pid then return .finish .nothing else return .again
  updateCheck := do return .finish (.check (some (← Update.check s)))

end Steward
