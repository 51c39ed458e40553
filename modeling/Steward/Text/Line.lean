import Steward.Text.Utf8

/-!
# Lines of bytes

A stream of bytes falls into lines at the newline byte. Each line is decoded by itself, together with
its newline, so a fault in one line says nothing about the others and is placed within its line.
-/

namespace Steward.Text

/-- A line without its newline; `closed` says whether there was one. -/
structure Line where
  bytes : Utf8.Bytes
  closed : Bool
  deriving Repr, DecidableEq

namespace Line

def newline : UInt8 := 10

/-- The bytes with the newline. -/
def whole (l : Line) : Utf8.Bytes := if l.closed then l.bytes ++ [newline] else l.bytes

/-- The lines of a stream. An unclosed last line counts when it holds something. -/
def ofBytes : Utf8.Bytes → List Line
  | [] => []
  | b :: rest =>
    if b == newline then ⟨[], true⟩ :: ofBytes rest
    else
      match ofBytes rest with
      | [] => [⟨[b], false⟩]
      | l :: ls => ⟨b :: l.bytes, l.closed⟩ :: ls

/-- Removes a newline at the end and a carriage return in front of it. -/
def chomp (cs : List Char) : List Char :=
  match cs.reverse with
  | '\n' :: '\r' :: rest => rest.reverse
  | '\n' :: rest => rest.reverse
  | _ => cs

/-- The text of a line without its line break. -/
def text (l : Line) : Except Utf8.Fault (List Char) := (Utf8.decode l.whole).map chomp

end Line

end Steward.Text
