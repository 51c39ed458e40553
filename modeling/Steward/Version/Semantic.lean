import Steward.Text.Blank
import Steward.Text.Numeral

/-!
# Semantic versions

`major.minor.patch`, then optionally `-` and pre-release identifiers, then optionally `+` and build
identifiers. Numbers have no superfluous zeros and fit into 64 bits; a numeric pre-release identifier
has no superfluous zero either.
-/

namespace Steward.Version

structure Semantic where
  major : Nat
  minor : Nat
  patch : Nat
  pre : List (List Char)
  build : List (List Char)
  deriving Repr, DecidableEq

namespace Semantic

open Steward.Text

/-- One of the three numbers. -/
def component? (cs : List Char) : Option Nat :=
  match cs with
  | '0' :: _ :: _ => none
  | cs =>
    match decimal? cs with
    | some n => if n ≤ maxU64 then some n else none
    | none => none

def isIdentifierChar (c : Char) : Bool := c.isAlphanum || c == '-'

/-- A build identifier: letters, digits and hyphens. -/
def isBuildIdentifier (cs : List Char) : Bool := !cs.isEmpty && cs.all isIdentifierChar

/-- A pre-release identifier. -/
def isPreIdentifier (cs : List Char) : Bool :=
  isBuildIdentifier cs &&
    match cs with
    | '0' :: _ :: _ => !cs.all fun c => (digit? c).isSome
    | _ => true

/-- Cuts at the first `sep`. -/
def cutFirst (sep : Char) (cs : List Char) : List Char × Option (List Char) :=
  match cs.dropWhile (· != sep) with
  | [] => (cs, none)
  | _ :: rest => (cs.takeWhile (· != sep), some rest)

/-- Identifiers set apart by dots; none at all if the part is not written. -/
def identifiers? (ok : List Char → Bool) : Option (List Char) → Option (List (List Char))
  | none => some []
  | some cs =>
    let ids := splitAll '.' cs
    if ids.all ok then some ids else none

def parse (cs : List Char) : Option Semantic :=
  let (front, build) := cutFirst '+' cs
  let (core, pre) := cutFirst '-' front
  match splitAll '.' core with
  | [a, b, c] => do
    return ⟨← component? a, ← component? b, ← component? c, ← identifiers? isPreIdentifier pre,
      ← identifiers? isBuildIdentifier build⟩
  | _ => none

/-- Identifiers joined by dots, behind `mark`; nothing if there are none. -/
def renderIdentifiers (mark : Char) : List (List Char) → List Char
  | [] => []
  | id :: ids => mark :: id ++ ids.flatMap ('.' :: ·)

def render (v : Semantic) : List Char :=
  Nat.toDigits 10 v.major ++ '.' :: Nat.toDigits 10 v.minor ++ '.' :: Nat.toDigits 10 v.patch ++
    renderIdentifiers '-' v.pre ++ renderIdentifiers '+' v.build

end Semantic

end Steward.Version
