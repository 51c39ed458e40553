import Steward.Text.Blank
import Steward.Text.Numeral

/-!
# Which events are recorded

A filter is a list of directives with commas between them. A directive is a level, a target, or a target,
an equals sign and a level; it may also name a span in square brackets, and then never concerns an event
outside of spans. Of the directives whose target begins the event's target the one with the longest
target decides.
-/

namespace Steward.Journal

/-- How grave an event is, gravest first; the numbers run the other way. -/
inductive Level where
  | error
  | warn
  | info
  | debug
  | trace
  deriving Repr, DecidableEq

namespace Level

def rank : Level → Nat
  | .error => 1
  | .warn => 2
  | .info => 3
  | .debug => 4
  | .trace => 5

def display : Level → String
  | .error => "ERROR"
  | .warn => "WARN"
  | .info => "INFO"
  | .debug => "DEBUG"
  | .trace => "TRACE"

end Level

/-- Up to which rank events pass: `0` lets nothing pass. -/
def threshold? (word : List Char) : Option Nat :=
  match Text.numeral? Text.maxU64 word with
  | some n => if n ≤ 5 then some n else none
  | none =>
    let named := ["off", "error", "warn", "info", "debug", "trace"]
    if word.isEmpty then some 1 else named.findIdx? fun name => Text.sameAsciiCase name.toList word

structure Directive where
  target : Option (List Char)
  threshold : Nat
  /-- whether it names a span -/
  inSpan : Bool := false
  deriving Repr, DecidableEq

namespace Directive

/-- What a directive may begin with, a bracket apart. -/
def isStart (c : Char) : Bool := c == '-' || c == ':' || c == '_' || c.isAlphanum || 0x80 ≤ c.toNat

/-- A bare word is a level if it reads as one, else a target. -/
def ofWord (word : List Char) : Directive :=
  match threshold? word with
  | some n => ⟨none, n, false⟩
  | none => ⟨some word, 5, false⟩

/-- The level behind an equals sign; nothing there means all. -/
def levelBehind (word : List Char) : Option Nat := if word.isEmpty then some 5 else threshold? word

/-- What follows the brackets of a span: nothing, or an equals sign and a level. -/
def spanLevel? : List Char → Option Nat
  | [] => some 5
  | '=' :: level => levelBehind level
  | _ => none

/-- A span and what follows it. -/
def ofSpan (target : Option (List Char)) (rest : List Char) : Option Directive :=
  match rest.dropWhile (· != ']') with
  | [] => none
  | _ :: after => (spanLevel? after).map fun n => ⟨target, n, true⟩

/-- Reads one directive. Its form is looked for between the blanks around it, but words are cut from the
whole text at the same positions; so blanks in front make a level behind a target unreadable, and a bare
word with blanks is a target. -/
def parse (text : List Char) : Option Directive :=
  let inner := Text.trim text
  match inner with
  | [] => none
  | '[' :: rest => ofSpan none rest
  | c :: _ =>
    if !isStart c then none
    else
      let mark := inner.takeWhile fun c => c != '=' && c != '['
      match inner.drop mark.length with
      | [] => some (ofWord text)
      | '=' :: _ =>
        (levelBehind (text.drop (mark.length + 1))).map fun n =>
          ⟨some (text.take mark.length), n, false⟩
      | _ :: rest => ofSpan (some (text.take mark.length)) rest

/-- Whether it concerns events of a target. -/
def concerns (d : Directive) (target : List Char) : Bool :=
  !d.inSpan &&
    match d.target with
    | some start => start.isPrefixOf target
    | none => true

/-- How closely it describes its targets. -/
def weight (d : Directive) : Nat :=
  match d.target with
  | some start => start.length + 1
  | none => 0

end Directive

structure Filter where
  directives : List Directive
  deriving Repr, DecidableEq

namespace Filter

/-- Reads a filter. Nothing at all lets only errors pass. -/
def parse (text : List Char) : Option Filter :=
  match ((Text.splitAll ',' text).filter (!·.isEmpty)).mapM Directive.parse with
  | none => none
  | some [] => some ⟨[⟨none, 1, false⟩]⟩
  | some ds => some ⟨ds⟩

/-- The directive that decides about a target: the closest one, of several the last. -/
def deciding? (f : Filter) (target : List Char) : Option Directive :=
  f.directives.foldl
    (fun best d =>
      if d.concerns target then
        match best with
        | some b => if b.weight ≤ d.weight then some d else some b
        | none => some d
      else best)
    none

/-- Whether an event is recorded. -/
def passes (f : Filter) (level : Level) (target : String) : Bool :=
  match f.deciding? target.toList with
  | some d => level.rank ≤ d.threshold
  | none => false

end Filter

end Steward.Journal
