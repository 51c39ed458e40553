import Steward.Text.Blank
import Steward.Text.Numeral

/-!
# Choosing from a menu

A prompt lists its choices with numbers. An answer picks one by its number, by its text in any case,
or, as `y` or `yes`, the first. A number picks nothing but by position.
-/

namespace Steward.Choice

/-- The choice at a position counted from one. -/
def byNumber (choices : List String) : Nat → Option String
  | 0 => none
  | n + 1 => choices[n]?

def isYes (answer : List Char) : Bool :=
  Text.sameAsciiCase answer ['y'] || Text.sameAsciiCase answer ['y', 'e', 's']

/-- The choice that an answer means, if any. -/
def pick (answer : String) (choices : List String) : Option String :=
  let word := Text.trim answer.toList
  if word.isEmpty then none
  else
    match Text.numeral? Text.maxU64 word with
    | some n => byNumber choices n
    | none =>
      match choices.find? fun choice => Text.sameAsciiCase choice.toList word with
      | some choice => some choice
      | none => if isYes word then choices.head? else none

/-- The menu line with its numbers. -/
def menu (choices : List String) : String :=
  let items := choices.zipIdx.map fun (choice, i) =>
    let number := i + 1
    s!"{number}) " ++ choice
  "  " ++ "  ".intercalate items ++ "  (anything else dismisses)"

end Steward.Choice
