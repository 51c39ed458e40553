import Steward.Toml.Scalar
import Steward.Toml.Token

/-!
# Reading TOML

A pushdown automaton over tokens. The arrays and inline tables that are still open form a stack of
`Frame`s above the line that is being read, and `State.step` consumes one token. The document grows
in place: `descend` walks to the table that a header or a dotted key names and decides whether it
may still be extended.
-/

namespace Steward.Toml

/-- How deep arrays and inline tables may be nested. -/
def depthLimit : Nat := 80

/-- How many parts a dotted key may have. -/
def keyLimit : Nat := 80

/-- Applies `change` to the table at the end of `path`, making the missing tables on the way.
Headers walk through every table but an inline one, and through the last table of an array of
tables. Dotted keys walk only through tables that have no header of their own. -/
def descend (dotted : Bool) (change : TableKind → Entries → Option (TableKind × Entries)) :
    List String → TableKind → Entries → Option (TableKind × Entries)
  | [], kind, es => change kind es
  | key :: path, kind, es =>
    match es.get? key with
    | none =>
      match descend dotted change path (if dotted then .dotted else .implicit) [] with
      | some (k, sub) => some (kind, es.put key (.table k sub))
      | none => none
    | some (.table k sub) =>
      if k == .inline || (dotted && k == .header) then none
      else
        match descend dotted change path k sub with
        | some (k, sub) => some (kind, es.put key (.table k sub))
        | none => none
    | some (.array true items) =>
      match items.getLast? with
      | some (.table k sub) =>
        match descend dotted change path k sub with
        | some (k, sub) =>
          some (kind, es.put key (.array true (items.dropLast ++ [.table k sub])))
        | none => none
      | _ => none
    | some _ => none

/-- Sets one entry of a table; a key can be set once. A key of several parts may end only in a
table made by dotted keys. -/
def setEntry (parts : List String) (v : Value) (kind : TableKind) (es : Entries) :
    Option (TableKind × Entries) :=
  match parts.getLast? with
  | none => none
  | some key =>
    let path := parts.dropLast
    descend true (fun kind es =>
      if (kind == .dotted) == path.isEmpty then none
      else
        match es.get? key with
        | some _ => none
        | none => some (kind, es.put key v)) path kind es

/-- Opens the table of a `[…]` header. -/
def openTable (parts : List String) (es : Entries) : Option Entries :=
  match parts.getLast? with
  | none => none
  | some key =>
    (descend false (fun kind es =>
      match es.get? key with
      | none => some (kind, es.put key (.table .header []))
      | some (.table .implicit sub) => some (kind, es.put key (.table .header sub))
      | some _ => none) parts.dropLast .header es).map (·.2)

/-- Appends the table of a `[[…]]` header. -/
def appendTable (parts : List String) (es : Entries) : Option Entries :=
  match parts.getLast? with
  | none => none
  | some key =>
    (descend false (fun kind es =>
      match es.get? key with
      | none => some (kind, es.put key (.array true [.table .header []]))
      | some (.array true items) =>
        some (kind, es.put key (.array true (items ++ [.table .header []])))
      | some _ => none) parts.dropLast .header es).map (·.2)

/-- What is still open around a value. -/
inductive Frame where
  /-- the line `parts = …` -/
  | line (parts : List String)
  /-- an array, items last first -/
  | array (items : List Value)
  /-- an inline table in which `parts` is being set -/
  | inline (kind : TableKind) (entries : Entries) (parts : List String)

inductive KeyUse where
  | header (array : Bool)
  | entry
  deriving Repr, DecidableEq

/-- What the next token may be. Parts of a key are kept last first. -/
inductive Phase where
  | lineStart
  /-- right behind the bracket of a header -/
  | headerOpen
  | keyPart (use : KeyUse) (parts : List String)
  | keyNext (use : KeyUse) (parts : List String)
  /-- right behind the first closing bracket of a `[[…]]` header -/
  | headerShut (parts : List String)
  /-- a value; in an array also a line break or the end -/
  | value
  /-- inside a plain value -/
  | scalar (chars : List Char)
  /-- behind a blank that may belong to a date and time -/
  | scalarGap (chars : List Char)
  /-- behind a value -/
  | separator
  /-- in an inline table, where a key or the end may stand -/
  | keyOrEnd
  | lineEnd
  deriving Repr, DecidableEq

structure State where
  /-- the document so far -/
  root : Entries
  /-- the header under which lines are set -/
  heading : List String
  frames : List Frame
  phase : Phase

namespace State

def start : State := ⟨[], [], [], .lineStart⟩

def depth (s : State) : Nat := s.frames.length

/-- Sets a line of the document under the current header. -/
def assign (s : State) (parts : List String) (v : Value) : Option State :=
  match descend false (fun kind es => setEntry parts v kind es) s.heading .header s.root with
  | some (_, root) => some { s with root := root, frames := [], phase := .lineEnd }
  | none => none

/-- Puts a finished value where it belongs. -/
def deliver (s : State) (v : Value) : Option State :=
  match s.frames with
  | [] => none
  | .line parts :: _ => s.assign parts v
  | .array items :: rest => some { s with frames := .array (v :: items) :: rest, phase := .separator }
  | .inline kind entries parts :: rest =>
    match setEntry parts v kind entries with
    | some (kind, entries) =>
      some { s with frames := .inline kind entries [] :: rest, phase := .separator }
    | none => none

/-- Closes the innermost array. -/
def closeArray (s : State) : Option State :=
  match s.frames with
  | .array items :: rest => { s with frames := rest }.deliver (.array false items.reverse)
  | _ => none

/-- Closes the innermost inline table. -/
def closeInline (s : State) : Option State :=
  match s.frames with
  | .inline _ entries _ :: rest => { s with frames := rest }.deliver (.table .inline entries)
  | _ => none

/-- Opens one more level. -/
def enter (s : State) (f : Frame) (phase : Phase) : Option State :=
  if s.frames.length ≤ depthLimit then some { s with frames := f :: s.frames, phase := phase }
  else none

/-- The key in front of an equals sign is complete. -/
def beginEntry (s : State) (parts : List String) : Option State :=
  match s.frames with
  | [] => some { s with frames := [.line parts], phase := .value }
  | .inline kind entries _ :: rest =>
    some { s with frames := .inline kind entries parts :: rest, phase := .value }
  | _ => none

/-- The header is complete. -/
def beginTable (s : State) (array : Bool) (parts : List String) : Option State :=
  match if array then appendTable parts s.root else openTable parts s.root with
  | some root => some { s with root := root, heading := parts, phase := .lineEnd }
  | none => none

def isBareKey (cs : List Char) : Bool :=
  !cs.isEmpty && cs.all fun c => c.isAlphanum || c == '_' || c == '-'

/-- A part of a key: a bare word or a single-line text. -/
def keyPart? : Token → Option String
  | .word cs => if isBareKey cs then some (String.ofList cs) else none
  | .text false s => some s
  | _ => none

/-- One more part of a key. -/
def pushKey (s : State) (use : KeyUse) (parts : List String) (t : Token) : Option State :=
  match keyPart? t with
  | some part =>
    if parts.length < keyLimit then some { s with phase := .keyNext use (part :: parts) } else none
  | none => none

/-- Ends a plain value. -/
def endScalar (s : State) (chars : List Char) : Option State :=
  match Scalar.value? chars with
  | some v => s.deliver v
  | none => none

/-- The first token of a value. -/
def beginValue (s : State) (t : Token) : Option State :=
  match t with
  | .word cs => some { s with phase := .scalar cs }
  | .dot => some { s with phase := .scalar ['.'] }
  | .text _ text => s.deliver (.string text)
  | .openBracket => s.enter (.array []) .value
  | .openBrace => s.enter (.inline .inline [] []) .keyOrEnd
  | _ => none

/-- A token behind a finished value or header. -/
def afterValue (s : State) (t : Token) : Option State :=
  match s.phase, t with
  | .lineEnd, .newline => some { s with phase := .lineStart }
  | .lineEnd, .blank => some s
  | .separator, .newline => some s
  | .separator, .blank => some s
  | .separator, .comma =>
    match s.frames with
    | .array _ :: _ => some { s with phase := .value }
    | .inline _ _ _ :: _ => some { s with phase := .keyOrEnd }
    | _ => none
  | .separator, .closeBracket => s.closeArray
  | .separator, .closeBrace => s.closeInline
  | _, _ => none

def step (s : State) (t : Token) : Option State :=
  match s.phase with
  | .lineStart =>
    match t with
    | .blank | .newline => some s
    | .openBracket => some { s with phase := .headerOpen }
    | t => s.pushKey .entry [] t
  | .headerOpen =>
    match t with
    | .openBracket => some { s with phase := .keyPart (.header true) [] }
    | .blank => some { s with phase := .keyPart (.header false) [] }
    | t => s.pushKey (.header false) [] t
  | .keyPart use parts =>
    match t with
    | .blank => some s
    | t => s.pushKey use parts t
  | .keyNext use parts =>
    match t with
    | .blank => some s
    | .dot => some { s with phase := .keyPart use parts }
    | .equals => if use == .entry then s.beginEntry parts.reverse else none
    | .closeBracket =>
      match use with
      | .header true => some { s with phase := .headerShut parts }
      | .header false => s.beginTable false parts.reverse
      | .entry => none
    | _ => none
  | .headerShut parts =>
    match t with
    | .closeBracket => s.beginTable true parts.reverse
    | _ => none
  | .value =>
    match t, s.frames with
    | .blank, _ => some s
    | .newline, .array _ :: _ => some s
    | .closeBracket, .array _ :: _ => s.closeArray
    | t, _ => s.beginValue t
  | .scalar chars =>
    match t with
    | .word cs => some { s with phase := .scalar (chars ++ cs) }
    | .dot => some { s with phase := .scalar (chars ++ ['.']) }
    | .blank => some { s with phase := .scalarGap chars }
    | t => (s.endScalar chars).bind (·.afterValue t)
  | .scalarGap chars =>
    match t with
    | .word cs => some { s with phase := .scalar (chars ++ ' ' :: cs) }
    | t => (s.endScalar chars).bind (·.afterValue t)
  | .separator => s.afterValue t
  | .keyOrEnd =>
    match t with
    | .blank | .newline => some s
    | .closeBrace => s.closeInline
    | t => s.pushKey .entry [] t
  | .lineEnd => s.afterValue t

def run (s : State) : List Token → Option State
  | [] => some s
  | t :: ts =>
    match s.step t with
    | some s => run s ts
    | none => none

end State

/-- The document written by a sequence of tokens; its last line needs no line break. -/
def ofTokens? (tokens : List Token) : Option Entries :=
  match State.start.run (tokens ++ [.newline]) with
  | some ⟨root, _, [], .lineStart⟩ => some root
  | _ => none

/-- The document that a text denotes. A byte order mark in front is ignored. -/
def parse (cs : List Char) : Option Entries :=
  let cs := match cs with
    | c :: rest => if c.toNat == 0xFEFF then rest else c :: rest
    | [] => []
  (scan cs).bind ofTokens?

end Steward.Toml
