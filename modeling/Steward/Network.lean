import Steward.Text.Utf8
import Steward.Version.Published

/-!
# Asking the repository

A network is what comes back for an address. Anything but a successful response with a readable body is
no answer.
-/

namespace Steward

structure Response where
  status : Nat
  body : Text.Utf8.Bytes
  deriving Repr, DecidableEq

/-- What a request to an address gets, if it gets anything. -/
structure Network where
  respond : String → Option Response

namespace Network

/-- Nothing can be reached. -/
def unreachable : Network := ⟨fun _ => none⟩

/-- The JSON value at an address, read by `read?`. -/
def fetch {α : Type} (n : Network) (address : String) (read? : Datum → Option α) :
    Except Failure α :=
  match n.respond address with
  | none => .error .noAnswer
  | some r =>
    if r.status < 200 || 300 ≤ r.status then .error .noAnswer
    else
      match Text.Utf8.decode r.body with
      | .error _ => .error .noAnswer
      | .ok text =>
        match (Json.parse text).bind fun v => read? (.ofJson v) with
        | some a => .ok a
        | none => .error .noAnswer

/-- The commit at the tip of the default branch. -/
def tipCommit (n : Network) (u : UpdateSettings) : Except Failure String :=
  n.fetch (Version.Repository.branchUrl u) Version.Repository.tip?

/-- The tags of the repository. -/
def tags (n : Network) (u : UpdateSettings) : Except Failure (List Version.Tag) :=
  n.fetch (Version.Repository.tagsUrl u) Version.Repository.tags?

end Network

end Steward
