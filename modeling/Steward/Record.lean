import Steward.Json.Value
import Steward.Toml.Value

/-!
# Reading records from documents

Settings and messages come as records, from JSON and from TOML. Both formats are first brought to one
form, `Datum`. A record may also be given as a list, its fields by position; then a field may be left
out only at the end, and only if it has a default.
-/

namespace Steward

/-- What a document says, as far as a reader of records can tell. -/
inductive Datum where
  | null
  | flag (b : Bool)
  | integer (n : Int)
  /-- a text, or `none` for a literal that denotes no text -/
  | text (s : Option String)
  | list (items : List Datum)
  | members (ms : List (Option String × Datum))
  /-- a value of a type that no field has -/
  | other
  deriving Inhabited

namespace Datum

mutual

def ofJson : Json.Value → Datum
  | .null => .null
  | .bool b => .flag b
  | .number n =>
    match n.toInt? with
    | some v => if n.negative && v == 0 then .other else .integer v
    | none => .other
  | .string s => .text s
  | .array items => .list (ofJsonItems items)
  | .object ms => .members (ofJsonMembers ms)

def ofJsonItems : List Json.Value → List Datum
  | [] => []
  | v :: vs => ofJson v :: ofJsonItems vs

def ofJsonMembers : List (Json.Literal × Json.Value) → List (Option String × Datum)
  | [] => []
  | (k, v) :: ms => (k, ofJson v) :: ofJsonMembers ms

end

mutual

/-- A date counts as a record with one member that no reader knows. -/
def ofToml : Toml.Value → Datum
  | .string s => .text (some s)
  | .integer n => .integer n
  | .float _ => .other
  | .boolean b => .flag b
  | .moment word => .members [(some "$moment", .text (some word))]
  | .array _ items => .list (ofTomlItems items)
  | .table _ es => .members (ofTomlEntries es)

def ofTomlItems : List Toml.Value → List Datum
  | [] => []
  | v :: vs => ofToml v :: ofTomlItems vs

def ofTomlEntries : List (String × Toml.Value) → List (Option String × Datum)
  | [] => []
  | (k, v) :: es => (some k, ofToml v) :: ofTomlEntries es

end

end Datum

/-- What a record says about one of its fields. -/
inductive Field where
  | given (d : Datum)
  /-- not among the members -/
  | omitted
  /-- the list of fields ends before it -/
  | cut

/-- Whether a list may hold more items than the record has fields. -/
inductive Surplus where
  | refused
  | ignored
  deriving Repr, DecidableEq

namespace Field

/-- The fields of a list by position. -/
def byPosition : List String → List Datum → List Field
  | [], _ => []
  | _ :: names, [] => .cut :: byPosition names []
  | _ :: names, d :: ds => .given d :: byPosition names ds

/-- The member of that name; `none` if it is given twice. -/
def byName (ms : List (Option String × Datum)) (name : String) : Option Field :=
  match ms.filter fun m => m.1 == some name with
  | [] => some .omitted
  | [m] => some (.given m.2)
  | _ => none

/-- What a document says about the fields `names`; other members are passed over, but their names
must denote texts. -/
def ofDatum (surplus : Surplus) (names : List String) : Datum → Option (List Field)
  | .members ms => if ms.all (·.1.isSome) then names.mapM (byName ms) else none
  | .list items =>
    if surplus == .refused && names.length < items.length then none
    else some (byPosition names items)
  | _ => none

/-- A field that falls back to `default`. -/
def orDefault {α : Type} (read : Datum → Option α) (default : α) : Field → Option α
  | .given d => read d
  | .omitted => some default
  | .cut => some default

/-- A field that may be absent, by leaving out its name or by `null`. -/
def optional {α : Type} (read : Datum → Option α) : Field → Option (Option α)
  | .given .null => some none
  | .given d => (read d).map some
  | .omitted => some none
  | .cut => none

/-- A field that must be given. -/
def required {α : Type} (read : Datum → Option α) : Field → Option α
  | .given d => read d
  | .omitted => none
  | .cut => none

end Field

namespace Datum

def flag? : Datum → Option Bool
  | .flag b => some b
  | _ => none

def text? : Datum → Option String
  | .text s => s
  | _ => none

/-- A natural number of at most `limit`. -/
def natural? (limit : Nat) : Datum → Option Nat
  | .integer (.ofNat n) => if n ≤ limit then some n else none
  | _ => none

def texts? : Datum → Option (List String)
  | .list items => items.mapM text?
  | _ => none

end Datum

end Steward
