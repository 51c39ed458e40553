import Steward.Query
import Steward.Text.Line

/-!
# Capturing lines

An output stream of a server comes in chunks of bytes and is told line by line. A line is told without
the blanks at its end, and not at all if it is blank. A line that is no text is told as an error and
ends the capture; so does a line that nobody hears.
-/

namespace Steward

structure Capture where
  /-- bytes of a line that is not complete yet -/
  partialLine : Text.Utf8.Bytes := []
  /-- whether more is taken -/
  reading : Bool := true
  deriving Repr, DecidableEq

namespace Capture

def unreadable (fault : Text.Utf8.Fault) : ChildEvent :=
  .error ("Failed to read process output: " ++ fault.message)

/-- What some lines tell, and whether the capture goes on behind them. -/
def tell (heard : Bool) (make : String → ChildEvent) : List Text.Line → List ChildEvent × Bool
  | [] => ([], true)
  | l :: ls =>
    match Text.Utf8.decode l.whole with
    | .error fault => (if heard then [unreadable fault] else [], false)
    | .ok cs =>
      match Text.trimEnd cs with
      | [] => tell heard make ls
      | text =>
        if heard then
          let (events, goesOn) := tell heard make ls
          (make (String.ofList text) :: events, goesOn)
        else ([], false)

/-- A chunk comes in. -/
def feed (heard : Bool) (make : String → ChildEvent) (c : Capture) (chunk : Text.Utf8.Bytes) :
    List ChildEvent × Capture :=
  if !c.reading then ([], c)
  else
    let lines := Text.Line.ofBytes (c.partialLine ++ chunk)
    let (events, goesOn) := tell heard make (lines.filter (·.closed))
    (events, {
      partialLine := if goesOn then (lines.filter (!·.closed)).flatMap (·.bytes) else []
      reading := goesOn })

/-- Nothing more comes in; a line that is not complete still counts. -/
def close (heard : Bool) (make : String → ChildEvent) (c : Capture) : List ChildEvent × Capture :=
  if !c.reading then ([], c)
  else
    ((tell heard make (Text.Line.ofBytes c.partialLine)).1, { partialLine := [], reading := false })

end Capture

end Steward
