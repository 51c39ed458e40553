import Steward.Update.Check

/-!
# What a command reports

A command ends with a text, on the side of success or of failure.
-/

namespace Steward.CommandLine

inductive Report where
  | success (text : String)
  | failure (text : String)
  deriving Repr, DecidableEq

namespace Report

def isSuccess : Report → Bool
  | .success _ => true
  | .failure _ => false

def text : Report → String
  | .success text => text
  | .failure text => text

def display : Report → String
  | .success text => text
  | .failure text => "Error: " ++ text

/-- The report of an update check. A declined update is a success: the check itself went well. -/
def ofCheck : Update.Check → Report
  | .toolMissing => .failure "Tool is not installed; nothing to update"
  | .skipped => .success "Could not determine versions; update check skipped"
  | .upToDate v => .success ("Up to date (" ++ v.shortInstalled ++ ")")
  | .declined v => .success ("Update available: " ++ v.shortInstalled ++ " -> " ++ v.shortPublished)
  | .updated v => .success ("Updated to " ++ v.shortPublished)
  | .failed reason => .failure ("Update failed: " ++ reason)

end Report

end Steward.CommandLine
