import Steward.Service

/-!
# Installing the tool

The toolchain's install command, run with the user's consent. Nothing but a command that could not be
run or did not succeed counts as a failure; warnings on its error stream do not.
-/

namespace Steward.Tool

def installChoice : String := "Install"
def cancelChoice : String := "Cancel"

/-- Why an install command that ran did not succeed: its exit and what it said about it. -/
def failedInstall (o : CommandOutput) : Failure :=
  let status := match o.exitCode with
    | some code => s!"exit code {code}"
    | none => "terminated by signal"
  let detail := Text.trimmed o.stderr
  .install (if detail.isEmpty then status else status ++ ": " ++ detail)

/-- Runs the install command. -/
def runInstall (s : Service) : Program InstallOutcome := do
  match ← Program.command s.toolchain.program (s.toolchain.installArgs s.identity.source) with
  | .ok output =>
    if output.success then return .installed else return .failed (failedInstall output).message
  | .error e => return .failed e.message

/-- The question that is asked before an installation. -/
def installQuestion (s : Service) : String :=
  "The required tool \"" ++ s.tool ++ "\" is not installed. Would you like to install it now via '" ++
    s.toolchain.describeInstall s.identity.source ++ "'?"

/-- Asks for consent, installs and tells the user how it went. -/
def installPrompted (s : Service) : Program InstallOutcome := do
  let choice ← Program.prompt .warning (installQuestion s) [installChoice, cancelChoice]
  if choice != some installChoice then return .cancelled
  let outcome ← runInstall s
  match outcome with
  | .installed => Program.notify .info ("Successfully installed " ++ s.tool ++ ".")
  | .failed _ =>
    Program.notify .error ("Failed to install " ++ s.tool ++ ". Check the output log for details.")
  | .cancelled => pure ()
  return outcome

/-- Installs after asking the user, unless the host does it by itself. -/
def install (s : Service) : Program InstallOutcome := do
  match ← Program.query (.hostInstall true) with
  | some outcome => return outcome
  | none => installPrompted s

/-- Installs for a caller that has the user's consent already. -/
def installUnprompted (s : Service) : Program InstallOutcome := do
  match ← Program.query (.hostInstall false) with
  | some outcome => return outcome
  | none => runInstall s

end Steward.Tool
