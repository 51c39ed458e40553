/-!
# Environment variables
-/

namespace Steward

/-- Names with their values; the first of a name counts. -/
structure Variables where
  entries : List (String × String) := []
  deriving Repr, DecidableEq

namespace Variables

def get? (v : Variables) (name : String) : Option String := v.entries.lookup name

/-- Sets a variable, or takes it away. -/
def set (v : Variables) (name : String) (value : Option String) : Variables :=
  let others := v.entries.filter (·.1 != name)
  match value with
  | some value => ⟨(name, value) :: others⟩
  | none => ⟨others⟩

end Variables

end Steward
