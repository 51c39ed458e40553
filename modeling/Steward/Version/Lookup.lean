import Steward.Service
import Steward.Version.Installed

/-!
# Finding out the versions

The installed version comes from the toolchain, the published one from the repository. Whatever goes
wrong on the way, the version is then unknown and nothing else happens.
-/

namespace Steward.Version

/-- The version of the program at `path`. -/
def lookupInstalled (toolchain : Tool.Toolchain) (path : String) : Program (Option String) := do
  match ← Program.command toolchain.program (toolchain.versionArgs path) with
  | .ok output =>
    if output.success then return (ofBuildInfo output.stdout).toOption else return none
  | .error _ => return none

/-- The version at the tip of the repository. -/
def lookupPublished (excluded : String) : Program (Option String) := do
  match ← Program.query .tipCommit with
  | .error _ => return none
  | .ok tip =>
    if isBlankTip tip then return none
    match ← Program.query .tags with
    | .error _ => return none
    | .ok tags => return some (resolve tip tags excluded)

end Steward.Version
