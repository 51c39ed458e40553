import Steward.Failure
import Steward.Json.Parser
import Steward.Record
import Steward.Config.Basic
import Steward.Version.Semantic

/-!
# The published version

The repository is asked for the commit at the tip of its default branch and for its tags. If a release
tag sits on the tip, its version is the published one, otherwise the commit itself is.
-/

namespace Steward.Version

structure Tag where
  name : String
  commit : String
  deriving Repr, DecidableEq

/-- The semantic version in a tag name: blanks around it and a run of `=` and `v` in front do not
count. -/
def clean (tag : String) : Option String :=
  let core := (Text.trim tag.toList).dropWhile fun c => c == '=' || c == 'v'
  (Semantic.parse core).map fun v => String.ofList v.render

/-- Whether a tag name starts with the excluded text; the empty text excludes nothing. -/
def isExcluded (excluded name : String) : Bool :=
  !excluded.isEmpty && excluded.toList.isPrefixOf name.toList

/-- The version a tag gives to the commit `tip`, if it is a release tag on it. -/
def Tag.versionAt (excluded tip : String) (t : Tag) : Option String :=
  if isExcluded excluded t.name then none
  else if t.commit == tip then clean t.name
  else none

/-- The published version: that of the first release tag on the tip, else the tip. -/
def resolve (tip : String) (tags : List Tag) (excluded : String) : String :=
  (tags.findSome? (Tag.versionAt excluded tip)).getD tip

/-- Whether the repository named a tip at all. -/
def isBlankTip (tip : String) : Bool := (Text.trim tip.toList).isEmpty

namespace Repository

/-- The address without the slashes at its end. -/
def base (u : UpdateSettings) : String :=
  String.ofList (Text.dropEndWhile (· == '/') u.apiBase.toList)

/-- Where the tip of the default branch is asked for. -/
def branchUrl (u : UpdateSettings) : String :=
  base u ++ "/repos/" ++ u.repository ++ "/branches/" ++ u.defaultBranch

/-- Where the tags are asked for. -/
def tagsUrl (u : UpdateSettings) : String := base u ++ "/repos/" ++ u.repository ++ "/tags"

def commit? (d : Datum) : Option String := do
  match ← Field.ofDatum .refused ["sha"] d with
  | [sha] => sha.required Datum.text?
  | _ => none

def tip? (d : Datum) : Option String := do
  match ← Field.ofDatum .refused ["commit"] d with
  | [commit] => commit.required commit?
  | _ => none

def tag? (d : Datum) : Option Tag := do
  match ← Field.ofDatum .refused ["name", "commit"] d with
  | [name, commit] => return ⟨← name.required Datum.text?, ← commit.required commit?⟩
  | _ => none

def tags? : Datum → Option (List Tag)
  | .list items => items.mapM tag?
  | _ => none

end Repository

end Steward.Version
