/-!
# TOML values

A document is a table. Each table remembers how it came into being, because that decides whether
later lines may still extend it.
-/

namespace Steward.Toml

/-- How a table came into being. -/
inductive TableKind where
  /-- named only as the parent of a header -/
  | implicit
  /-- made by a dotted key -/
  | dotted
  /-- opened by its own header; the document itself counts as opened -/
  | header
  /-- written between braces -/
  | inline
  deriving Repr, DecidableEq

inductive Value where
  | string (s : String)
  | integer (n : Int)
  /-- a float, as written -/
  | float (word : String)
  | boolean (b : Bool)
  /-- a date, a time or both, as written -/
  | moment (word : String)
  /-- an array; `ofTables` if it grew from `[[…]]` headers -/
  | array (ofTables : Bool) (items : List Value)
  | table (kind : TableKind) (entries : List (String × Value))
  deriving Repr, Inhabited

abbrev Entries := List (String × Value)

namespace Entries

def get? (key : String) (es : Entries) : Option Value := es.lookup key

/-- Puts `v` under `key`, in place if the key is there and at the end if not. -/
def put (key : String) (v : Value) : Entries → Entries
  | [] => [(key, v)]
  | (k, w) :: es => if k == key then (k, v) :: es else (k, w) :: put key v es

end Entries

end Steward.Toml
