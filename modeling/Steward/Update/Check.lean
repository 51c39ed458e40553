import Steward.Version.Compare

/-!
# The result of an update check
-/

namespace Steward.Update

inductive Check where
  | toolMissing
  /-- one of the versions could not be found out -/
  | skipped
  | upToDate (versions : Version.Pair)
  /-- an update was offered and not wanted -/
  | declined (versions : Version.Pair)
  | updated (versions : Version.Pair)
  | failed (reason : String)
  deriving Repr, DecidableEq

end Steward.Update
