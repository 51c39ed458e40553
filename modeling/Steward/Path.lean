import Steward.Text.Blank

/-!
# Paths

Paths are texts. A path is absolute if it starts with a slash; its parts are what stands between
slashes. A dot as a part means nothing unless it comes first.
-/

namespace Steward.Path

def isAbsolute (p : String) : Bool := p.toList.head? == some '/'

/-- What stands between the slashes, empty parts left out. -/
def pieces (p : String) : List String :=
  ((Text.splitAll '/' p.toList).filter (!·.isEmpty)).map String.ofList

/-- The parts of a path: dots behind the first part are left out. -/
def parts (p : String) : List String :=
  match pieces p with
  | [] => []
  | first :: rest =>
    let rest := rest.filter (· != ".")
    if first == "." && isAbsolute p then rest else first :: rest

/-- The path with those parts. -/
def ofParts (absolute : Bool) (ps : List String) : String :=
  (if absolute then "/" else "") ++ "/".intercalate ps

/-- Puts `q` behind the directory `p`; an absolute `q` stands for itself. -/
def join (p q : String) : String :=
  if isAbsolute q || p.isEmpty then q
  else if p.toList.getLast? == some '/' then p ++ q
  else p ++ "/" ++ q

/-- The directory that a path is in; `none` for the root and for nothing. -/
def parent? (p : String) : Option String :=
  match parts p with
  | [] => none
  | ps => some (ofParts (isAbsolute p) ps.dropLast)

end Steward.Path
