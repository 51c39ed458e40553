/-!
# How a process ended

A process ends with an exit code or by a signal. If neither is known its status is unknown; if both
are given the code counts.
-/

namespace Steward

structure Exit where
  code : Option Int := none
  signal : Option Int := none
  deriving Repr, DecidableEq

namespace Exit

def display (e : Exit) : String :=
  match e.code, e.signal with
  | some code, _ => s!"code {code}"
  | none, some signal => s!"signal {signal}"
  | none, none => "unknown status"

/-- Whether the process reported success. -/
def isClean (e : Exit) : Bool := e.code == some 0

end Exit

end Steward
