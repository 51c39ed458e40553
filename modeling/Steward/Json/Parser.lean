import Steward.Json.Token

/-!
# Reading JSON

The parser is a pushdown automaton over tokens: the arrays and objects that are still open form a
stack of `Frame`s, and `State.step` consumes one token. Nothing recurses on the nesting, so the
depth of a text is no concern here.
-/

namespace Steward.Json

/-- An array or object that is still open; items and members are kept last first. -/
inductive Frame where
  | array (items : List Value)
  | object (members : List (Literal × Value)) (key : Literal)
  deriving Inhabited

/-- What may come next. -/
inductive Expect where
  | value
  | valueOrEnd
  | key
  | keyOrEnd
  | colon
  | separator
  | nothing
  deriving Repr, DecidableEq

structure State where
  frames : List Frame
  expect : Expect
  result : Value

namespace State

def start : State := ⟨[], .value, .null⟩

/-- Puts a finished value where it belongs. -/
def deliver (frames : List Frame) (v : Value) : State :=
  match frames with
  | [] => ⟨[], .nothing, v⟩
  | .array items :: rest => ⟨.array (v :: items) :: rest, .separator, .null⟩
  | .object members key :: rest => ⟨.object ((key, v) :: members) none :: rest, .separator, .null⟩

/-- Begins a value with its first token. -/
def beginValue (frames : List Frame) : Token → Option State
  | .null => some (deliver frames .null)
  | .bool b => some (deliver frames (.bool b))
  | .number n => some (deliver frames (.number n))
  | .string s => some (deliver frames (.string s))
  | .beginArray => some ⟨.array [] :: frames, .valueOrEnd, .null⟩
  | .beginObject => some ⟨.object [] none :: frames, .keyOrEnd, .null⟩
  | _ => none

/-- Closes the innermost array. -/
def endArray : List Frame → Option State
  | .array items :: rest => some (deliver rest (.array items.reverse))
  | _ => none

/-- Closes the innermost object. -/
def endObject : List Frame → Option State
  | .object members _ :: rest => some (deliver rest (.object members.reverse))
  | _ => none

/-- A member name. -/
def setKey (key : Literal) : List Frame → Option State
  | .object members _ :: rest => some ⟨.object members key :: rest, .colon, .null⟩
  | _ => none

def step (s : State) (t : Token) : Option State :=
  match s.expect, t with
  | .value, t => beginValue s.frames t
  | .valueOrEnd, .endArray => endArray s.frames
  | .valueOrEnd, t => beginValue s.frames t
  | .keyOrEnd, .endObject => endObject s.frames
  | .keyOrEnd, .string k => setKey k s.frames
  | .key, .string k => setKey k s.frames
  | .colon, .colon => some { s with expect := .value }
  | .separator, .comma =>
    match s.frames with
    | .array _ :: _ => some { s with expect := .value }
    | .object _ _ :: _ => some { s with expect := .key }
    | [] => none
  | .separator, .endArray => endArray s.frames
  | .separator, .endObject => endObject s.frames
  | _, _ => none

/-- Consumes the tokens one after another. -/
def run (s : State) : List Token → Option State
  | [] => some s
  | t :: ts =>
    match s.step t with
    | some s => run s ts
    | none => none

end State

/-- The value written by a sequence of tokens. -/
def ofTokens? (tokens : List Token) : Option Value :=
  match State.start.run tokens with
  | some ⟨[], .nothing, v⟩ => some v
  | _ => none

/-- The value that a text denotes, blanks around it allowed. -/
def parse (cs : List Char) : Option Value := (scan cs).bind ofTokens?

end Steward.Json
