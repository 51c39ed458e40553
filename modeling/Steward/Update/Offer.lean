import Steward.Tool.Installer
import Steward.Version.Lookup

/-!
# Offering an update

If the installed version and the published one differ, the user is offered to install the published
one. Nothing is said to the user before both versions are known and differ.
-/

namespace Steward.Update

def updateChoice : String := "Update Now"

/-- Installs the published version and tells the user how it went. -/
def runUpdate (s : Service) : Program Tool.InstallOutcome := do
  let title := "Updating " ++ s.tool ++ "..."
  Program.query (.progressStarted title)
  Program.write .extension .info ("[Update] Installing " ++ s.identity.source ++ "...")
  let outcome ← Tool.installUnprompted s
  match outcome with
  | .installed =>
    Program.write .extension .info ("[Update] Successfully updated " ++ s.tool ++ ".")
    Program.notify .info
      (s.tool ++ " has been updated. Please restart the server to use the new version.")
  | .failed reason =>
    Program.write .extension .error ("[Update] Failed to update: " ++ reason)
    Program.notify .error ("Failed to update " ++ s.tool ++ ". Check the output log.")
  | .cancelled => pure ()
  Program.query (.progressFinished title)
  return outcome

/-- Makes the offer and acts on the answer. -/
def offer (s : Service) (versions : Version.Pair) : Program Check := do
  Program.write .extension .info
    ("[UpdateCheck] A new version (" ++ versions.shortPublished ++ ") is available.")
  let choice ← Program.prompt .info
    ("A new version (" ++ versions.shortPublished ++ ") of " ++ s.tool ++ " is available.")
    [updateChoice]
  if choice != some updateChoice then return .declined versions
  match ← runUpdate s with
  | .installed => return .updated versions
  | .failed reason => return .failed reason
  | .cancelled => return .declined versions

/-- Compares the versions, once the tool is found. -/
def checkAt (s : Service) (path : String) : Program Check := do
  match ← Program.both s.turns (Version.lookupInstalled s.toolchain path)
      (Version.lookupPublished s.excludedTagStart) with
  | (some installed, some published) =>
    let versions : Version.Pair := ⟨installed, published⟩
    if versions.updateAvailable then offer s versions
    else do
      Program.write .extension .info "[UpdateCheck] Tool is up to date."
      return .upToDate versions
  | _ => return .skipped

/-- The whole update check. -/
def check (s : Service) : Program Check := do
  Program.write .extension .info "[UpdateCheck] Starting background check for new version..."
  match ← Program.query .locate with
  | none =>
    Program.write .extension .info "[UpdateCheck] Tool not found. Skipping check."
    return .toolMissing
  | some path => checkAt s path

end Steward.Update
