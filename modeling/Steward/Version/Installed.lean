import Steward.Failure
import Steward.Json.Parser
import Steward.Record
import Steward.Text.Blank

/-!
# The installed version

An installed tool tells its version in a JSON record of build information, under `Main` and there
under `Version`. Builds of a commit end in a hyphen and the commit, so the part behind the last hyphen
is what identifies a build.
-/

namespace Steward.Version

/-- Why build information names no version. -/
inductive BuildFault where
  | unreadable
  | noVersion
  deriving Repr, DecidableEq

def BuildFault.failure : BuildFault → Failure
  | .unreadable => .unreadableJson
  | .noVersion => .version "binary carries no embedded version"

def mainVersion? (d : Datum) : Option String := do
  match ← Field.ofDatum .refused ["Version"] d with
  | [version] => version.required Datum.text?
  | _ => none

/-- The text under `Main` and `Version`. -/
def buildVersion? (v : Json.Value) : Option String := do
  match ← Field.ofDatum .refused ["Main"] (.ofJson v) with
  | [main] => main.required mainVersion?
  | _ => none

/-- The part of a build's version that identifies it. -/
def buildTail (version : String) : List Char := Text.trim (Text.afterLast '-' version.toList)

/-- The version told by build information. -/
def ofBuildInfo (text : String) : Except BuildFault String :=
  match (Json.parse text.toList).bind buildVersion? with
  | none => .error .unreadable
  | some version =>
    match buildTail version with
    | [] => .error .noVersion
    | tail => .ok (String.ofList tail)

end Steward.Version
