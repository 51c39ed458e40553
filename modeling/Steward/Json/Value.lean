import Steward.Text.Decimal

/-!
# JSON values

A value keeps everything a reader may later ask for: members in their written order with repeated
names, numbers as they were written, and whether a string denotes a text at all. What a given reader
accepts of it is that reader's business; `Value.isStrict` says which values are sound throughout.
-/

namespace Steward.Json

/-- The text of a string literal, or `none` if one of its escapes names half of a surrogate pair
without the other half. -/
abbrev Literal := Option String

/-- A number as written: `whole`, then a fraction and an exponent if there are any. -/
structure Number where
  negative : Bool
  whole : List Char
  fraction : Option (List Char)
  exponent : Option Int
  deriving Repr, DecidableEq

inductive Value where
  | null
  | bool (b : Bool)
  | number (n : Number)
  | string (s : Literal)
  | array (items : List Value)
  | object (members : List (Literal × Value))
  deriving Repr, Inhabited

namespace Number

/-- The number written by the digits of `n`. -/
def ofInt (n : Int) : Number := ⟨n < 0, Nat.toDigits 10 n.natAbs, none, none⟩

/-- The value, if neither a fraction nor an exponent is written. -/
def toInt? (n : Number) : Option Int :=
  match n.fraction, n.exponent with
  | none, none =>
    (Text.decimal? n.whole).map fun v => if n.negative then -(v : Int) else (v : Int)
  | _, _ => none

/-- The value, if it is a natural number of at most `limit`. A minus sign rules it out, also in
front of zero. -/
def toNat? (limit : Nat) (n : Number) : Option Nat :=
  if n.negative then none
  else
    match n.toInt? with
    | some (.ofNat v) => if v ≤ limit then some v else none
    | _ => none

/-- Whether the number is within the range of the doubles. -/
def isFinite (n : Number) : Bool :=
  let fraction := n.fraction.getD []
  !Text.exceedsDouble (n.whole ++ fraction) (n.exponent.getD 0 - fraction.length)

end Number

namespace Value

def text (s : String) : Value := .string (some s)

def int (n : Int) : Value := .number (.ofInt n)

def nat (n : Nat) : Value := .int n

/-- An object with distinct, sound member names. -/
def ofMembers (members : List (String × Value)) : Value :=
  .object (members.map fun (k, v) => (some k, v))

/-- How deep arrays and objects may be nested where every part of a value is read. -/
def depthLimit : Nat := 127

mutual

/-- Whether all parts of a value are sound: nesting of at most `depth` levels, finite numbers, and
strings and member names that denote texts. -/
def isStrict (depth : Nat) : Value → Bool
  | .null => true
  | .bool _ => true
  | .number n => n.isFinite
  | .string s => s.isSome
  | .array items => 0 < depth && areStrict (depth - 1) items
  | .object members => 0 < depth && membersStrict (depth - 1) members

def areStrict (depth : Nat) : List Value → Bool
  | [] => true
  | v :: vs => isStrict depth v && areStrict depth vs

def membersStrict (depth : Nat) : List (Literal × Value) → Bool
  | [] => true
  | (k, v) :: ms => k.isSome && isStrict depth v && membersStrict depth ms

end

/-- The text, if the value is a sound string. -/
def text? : Value → Option String
  | .string (some s) => some s
  | _ => none

/-- The first member of that name. -/
def member? (name : String) : Value → Option Value
  | .object members => (members.find? fun m => m.1 == some name).map (·.2)
  | _ => none

end Value

end Steward.Json
