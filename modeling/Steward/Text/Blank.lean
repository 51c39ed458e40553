/-!
# Blank characters and trimming

The blank characters are those with the Unicode property `White_Space`. Trimming removes a run of
them from one or both ends of a text; the characters in the middle are never touched.
-/

namespace Steward.Text

/-- The twenty-five code points with the Unicode property `White_Space`. -/
def isBlank (c : Char) : Bool :=
  let n := c.toNat
  (9 ≤ n && n ≤ 13) || n == 0x20 || n == 0x85 || n == 0xA0 || n == 0x1680 ||
    (0x2000 ≤ n && n ≤ 0x200A) || n == 0x2028 || n == 0x2029 || n == 0x202F || n == 0x205F ||
    n == 0x3000

/-- Drops the longest suffix whose characters all satisfy `p`. -/
def dropEndWhile (p : Char → Bool) : List Char → List Char
  | [] => []
  | c :: cs =>
    match dropEndWhile p cs with
    | [] => if p c then [] else [c]
    | d :: ds => c :: d :: ds

/-- Removes the blanks in front. -/
def trimStart (cs : List Char) : List Char := cs.dropWhile isBlank

/-- Removes the blanks behind. -/
def trimEnd (cs : List Char) : List Char := dropEndWhile isBlank cs

/-- Removes the blanks on both sides. -/
def trim (cs : List Char) : List Char := trimEnd (trimStart cs)

/-- `trim` on strings. -/
def trimmed (s : String) : String := String.ofList (trim s.toList)

/-- `trimEnd` on strings. -/
def trimmedEnd (s : String) : String := String.ofList (trimEnd s.toList)

/-- Splits at the last occurrence of `sep`: what stands before it and what stands after it. -/
def splitLast (sep : Char) : List Char → Option (List Char × List Char)
  | [] => none
  | c :: cs =>
    match splitLast sep cs with
    | some (before, after) => some (c :: before, after)
    | none => if c == sep then some ([], cs) else none

/-- The part after the last `sep`, or everything if there is none. -/
def afterLast (sep : Char) (cs : List Char) : List Char :=
  match splitLast sep cs with
  | some (_, after) => after
  | none => cs

/-- Splits at every occurrence of `sep`; the result is never empty. -/
def splitAll (sep : Char) : List Char → List (List Char)
  | [] => [[]]
  | c :: cs =>
    if c == sep then [] :: splitAll sep cs
    else
      match splitAll sep cs with
      | [] => [[c]]
      | part :: parts => (c :: part) :: parts

/-- The lines of a text: newlines end lines, and an unterminated last line counts when it holds
something. -/
def lines (cs : List Char) : List (List Char) :=
  let parts := splitAll '\n' cs
  if parts.getLast? = some [] then parts.dropLast else parts

/-- `s` without `front`, if it starts with it. -/
def dropFront (front s : List Char) : Option (List Char) := front.isPrefixOf? s

/-- The ASCII capital letters become small; every other character stays. -/
def asciiLower (cs : List Char) : List Char := cs.map Char.toLower

/-- Whether two texts agree up to the case of ASCII letters. -/
def sameAsciiCase (a b : List Char) : Bool := asciiLower a == asciiLower b

end Steward.Text
