/-!
# The result of an installation
-/

namespace Steward.Tool

inductive InstallOutcome where
  | installed
  /-- the user did not want it -/
  | cancelled
  | failed (reason : String)
  deriving Repr, DecidableEq

def InstallOutcome.isInstalled : InstallOutcome → Bool
  | .installed => true
  | _ => false

end Steward.Tool
