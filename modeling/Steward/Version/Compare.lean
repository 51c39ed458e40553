/-!
# Comparing versions

Two versions count as the same when their first seven characters agree. No order between versions is
known: a build that is ahead of the published one differs from it like any other.
-/

namespace Steward.Version

/-- How many characters decide. -/
def shortLength : Nat := 7

/-- The deciding characters. -/
def short (v : String) : String := String.ofList (v.toList.take shortLength)

def sameShort (a b : String) : Bool := short a == short b

/-- The version that is installed and the one that is published. -/
structure Pair where
  installed : String
  published : String
  deriving Repr, DecidableEq

namespace Pair

def upToDate (p : Pair) : Bool := sameShort p.installed p.published

def updateAvailable (p : Pair) : Bool := !p.upToDate

def shortInstalled (p : Pair) : String := short p.installed

def shortPublished (p : Pair) : String := short p.published

end Pair

end Steward.Version
