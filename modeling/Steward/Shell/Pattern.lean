/-!
# Patterns

A pattern describes whole texts: a star stands for any text, a question mark for any character, and
everything else for itself.
-/

namespace Steward.Shell

inductive Mark where
  | exactly (c : Char)
  | anyOne
  | anything
  deriving Repr, DecidableEq

abbrev Pattern := List Mark

namespace Pattern

/-- The pattern that a text is when nothing in it is quoted. -/
def ofText (cs : List Char) : Pattern :=
  cs.map fun c => if c == '*' then .anything else if c == '?' then .anyOne else .exactly c

/-- The pattern that fits one text only. -/
def exactText (cs : List Char) : Pattern := cs.map .exactly

/-- Whether a pattern fits a text. -/
def fits : Pattern → List Char → Bool
  | [], cs => cs.isEmpty
  | .exactly c :: p, d :: ds => c == d && fits p ds
  | .exactly _ :: _, [] => false
  | .anyOne :: p, _ :: ds => fits p ds
  | .anyOne :: _, [] => false
  | .anything :: p, [] => fits p []
  | .anything :: p, d :: ds => fits p (d :: ds) || fits (.anything :: p) ds
termination_by p cs => (p.length, cs.length)

/-- The lengths of the fronts of a text that fit, shortest first. -/
def fittingFronts (p : Pattern) (cs : List Char) : List Nat :=
  (List.range (cs.length + 1)).filter fun n => p.fits (cs.take n)

/-- A text without a front that fits. -/
def dropFront (p : Pattern) (longest : Bool) (cs : List Char) : List Char :=
  let fronts := p.fittingFronts cs
  match if longest then fronts.getLast? else fronts.head? with
  | some n => cs.drop n
  | none => cs

/-- A text without an end that fits. -/
def dropEnd (p : Pattern) (longest : Bool) (cs : List Char) : List Char :=
  let kept := (List.range (cs.length + 1)).filter fun n => p.fits (cs.drop n)
  match if longest then kept.head? else kept.getLast? with
  | some n => cs.take n
  | none => cs

end Pattern

end Steward.Shell
