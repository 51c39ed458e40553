import Steward.Json.Parser
import Steward.Json.Printer
import Steward.Record
import Steward.Text.Blank

/-!
# Server definitions

A definition tells the host how to reach a server: by the address it listens on, or by the program to
talk to over its standard streams. Its JSON form is an object whose member `type` says which of the
two it is.
-/

namespace Steward

/-- How the host and the server exchange messages. -/
inductive Transport where
  | stdio
  | http
  deriving Repr, DecidableEq

def Transport.display : Transport → String
  | .stdio => "stdio"
  | .http => "http"

inductive Definition where
  | stdio (name command : String) (args : List String)
  | http (name url : String)
  deriving Repr, DecidableEq

namespace Definition

/-- The definition of a server that listens on a port of this machine, given as text. -/
def onPort (name port : String) : Definition := .http name ("http://localhost:" ++ port)

def name : Definition → String
  | .stdio name _ _ => name
  | .http name _ => name

def transport : Definition → Transport
  | .stdio .. => .stdio
  | .http .. => .http

/-- The port at the end of the address: what follows the last colon, or all of it if it has none. -/
def port? : Definition → Option Nat
  | .stdio .. => none
  | .http _ url => Text.numeral? Text.maxU16 (Text.afterLast ':' url.toList)

def display : Definition → String
  | .stdio name command args =>
    name ++ " (stdio: " ++ command ++ " " ++ " ".intercalate args ++ ")"
  | .http name url => name ++ " (http: " ++ url ++ ")"

/-- The line that tells people how to reach the server. -/
def summary : Definition → String
  | .http name url => name ++ ": " ++ url
  | .stdio name command args => name ++ ": stdio `" ++ " ".intercalate (command :: args) ++ "`"

/-! ## The JSON form -/

def toJson : Definition → Json.Value
  | .stdio name command args =>
    .ofMembers [("type", .text "stdio"), ("name", .text name), ("command", .text command),
      ("args", .array (args.map .text))]
  | .http name url => .ofMembers [("type", .text "http"), ("name", .text name), ("url", .text url)]

def stdioOfDatum (d : Datum) : Option Definition := do
  match ← Field.ofDatum .refused ["type", "name", "command", "args"] d with
  | [_, name, command, args] =>
    return .stdio (← name.required Datum.text?) (← command.required Datum.text?)
      (← args.required Datum.texts?)
  | _ => none

def httpOfDatum (d : Datum) : Option Definition := do
  match ← Field.ofDatum .refused ["type", "name", "url"] d with
  | [_, name, url] => return .http (← name.required Datum.text?) (← url.required Datum.text?)
  | _ => none

/-- Reads the type first and then the fields that it calls for. -/
def ofDatum (d : Datum) : Option Definition := do
  match ← Field.ofDatum .ignored ["type"] d with
  | [type] =>
    match ← type.required Datum.text? with
    | "stdio" => stdioOfDatum d
    | "http" => httpOfDatum d
    | _ => none
  | _ => none

/-- The definition in a JSON value. All of the value has to be sound, also what is passed over. -/
def ofJson? (v : Json.Value) : Option Definition :=
  if v.isStrict Json.Value.depthLimit then ofDatum (.ofJson v) else none

/-- The definition in a JSON text. -/
def parse (s : String) : Option Definition := (Json.parse s.toList).bind ofJson?

end Definition

end Steward
