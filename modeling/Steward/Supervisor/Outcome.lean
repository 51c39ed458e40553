import Steward.Definition

/-!
# How starting and stopping ended
-/

namespace Steward.Supervisor

inductive StartOutcome where
  | started (definition : Definition)
  | alreadyRunning (definition : Definition)
  /-- another start or a stop is under way -/
  | busy
  /-- the tool is missing and the user did not want it installed -/
  | installCancelled
  | failed (reason : String)
  deriving Repr, DecidableEq

inductive StopOutcome where
  /-- the signal is delivered; the exit is still to come -/
  | signalled
  | alreadyStopping
  | notRunning
  | failed (reason : String)
  deriving Repr, DecidableEq

/-- The name of an outcome, given as the reason of an aborted start. -/
def StartOutcome.label : StartOutcome → String
  | .started _ => "Started"
  | .alreadyRunning _ => "AlreadyRunning"
  | .busy => "Busy"
  | .installCancelled => "InstallCancelled"
  | .failed _ => "Failed"

end Steward.Supervisor
