import Steward.CommandLine.Basic
import Steward.Text.Numeral

/-!
# Reading the arguments

Arguments are read from left to right, first for the program and, behind the name of a command, for
that command. An option's value is either attached or the next argument; it is looked at only when
the next option comes or the arguments end, so an earlier fault of another kind wins. The program's
own arguments are closed last, behind those of the command.
-/

namespace Steward.CommandLine

/-- Everything that can stand behind a hyphen. -/
inductive Switch where
  | verbose
  | config
  | help
  | version
  | yes
  | lines
  deriving Repr, DecidableEq

namespace Switch

def short? : Switch → Option Char
  | .verbose => some 'v'
  | .config => none
  | .help => some 'h'
  | .version => some 'V'
  | .yes => some 'y'
  | .lines => some 'n'

def long : Switch → String
  | .verbose => "verbose"
  | .config => "config"
  | .help => "help"
  | .version => "version"
  | .yes => "yes"
  | .lines => "lines"

def takesValue : Switch → Bool
  | .config => true
  | .lines => true
  | _ => false

/-- How a switch is called, with the place of its value. -/
def shown (s : Switch) : String :=
  "--" ++ s.long ++ (if s.takesValue then " <" ++ s.long.toUpper ++ ">" else "")

end Switch

namespace Verb

/-- What a command understands. -/
def switches : Verb → List Switch
  | .run => [.verbose, .config, .help, .yes]
  | .checkUpdate => [.verbose, .config, .help, .yes]
  | .locate => [.verbose, .config, .help]
  | .logs => [.verbose, .config, .help, .lines]
  | .config => [.verbose, .config, .help]

end Verb

/-- What the program itself understands. -/
def programSwitches : List Switch := [.verbose, .config, .help, .version]

/-- What has been read on one level, the program's or a command's. -/
structure Level where
  verb : Option Verb := none
  known : List Switch
  given : List Switch := []
  config : Option String := none
  lines : Option Nat := none
  /-- an option whose value has not been looked at, with the value if it came already -/
  pending : Option (Switch × Option String) := none
  /-- whether a bare double hyphen has been passed -/
  trailing : Bool := false

namespace Level

def has (l : Level) (s : Switch) : Bool := l.given.contains s

/-- A fault on this level. -/
def fault (l : Level) (kind : FaultKind) (subject value : String) : Fault :=
  { kind := kind, verb := l.verb, subject := subject, value := value }

/-- Whether the next argument belongs to an option. -/
def awaits (l : Level) : Bool :=
  match l.pending with
  | some (_, none) => !l.trailing
  | _ => false

/-- Takes the value of an option. -/
def store (l : Level) (s : Switch) (value : String) : Except Fault Level :=
  if l.has s then .error (l.fault .argumentConflict s.shown value)
  else
    match s with
    | .config =>
      if value.isEmpty then .error (l.fault .invalidValue s.shown value)
      else .ok { l with given := s :: l.given, config := some value }
    | .lines =>
      match Text.numeral? Text.maxU64 value.toList with
      | some n => .ok { l with given := s :: l.given, lines := some n }
      | none => .error (l.fault .valueValidation s.shown value)
    | _ => .ok l

/-- Looks at the value that was put off. -/
def settle (l : Level) : Except Fault Level :=
  match l.pending with
  | none => .ok l
  | some (s, none) => .error (l.fault .invalidValue s.shown "")
  | some (s, some value) => store { l with pending := none } s value

/-- A switch without a value. -/
def raise (l : Level) (s : Switch) : Except Fault Level := do
  let l ← l.settle
  match s with
  | .help => .error (l.fault .help "" "")
  | .version => .error (l.fault .version "" "")
  | s =>
    if l.has s then .error (l.fault .argumentConflict s.shown "")
    else .ok { l with given := s :: l.given }

/-- An option with its value, or waiting for it. -/
def option (l : Level) (s : Switch) : Option String → Except Fault Level
  | some value => do (← l.settle).store s value
  | none => do return { ← l.settle with pending := some (s, none) }

/-- An argument with two hyphens in front. -/
def long (l : Level) (body : List Char) : Except Fault Level :=
  let name := String.ofList (body.takeWhile (· != '='))
  let attached := match body.dropWhile (· != '=') with
    | [] => none
    | _ :: value => some (String.ofList value)
  match l.known.find? fun s => s.long == name with
  | none => .error (l.fault .unknownArgument ("--" ++ name) "")
  | some s =>
    match s.takesValue, attached with
    | true, _ => l.option s attached
    | false, some value => .error (l.fault .tooManyValues s.shown value)
    | false, none => l.raise s

/-- A value attached to a letter; an equals sign between them does not count. -/
def attachedValue : List Char → Option String
  | [] => none
  | '=' :: value => some (String.ofList value)
  | value => some (String.ofList value)

/-- An argument with one hyphen in front: letters, of which the first that takes a value takes the
rest. -/
def short (l : Level) : List Char → Except Fault Level
  | [] => .ok l
  | c :: rest =>
    match l.known.find? fun s => s.short? == some c with
    | none => .error (l.fault .unknownArgument (String.ofList ['-', c]) "")
    | some s =>
      if s.takesValue then l.option s (attachedValue rest)
      else
        match l.raise s with
        | .ok l => l.short rest
        | .error e => .error e

/-- One argument; `stray` is the fault of one that belongs nowhere. -/
def read (l : Level) (stray : FaultKind) (arg : String) : Except Fault Level :=
  if l.trailing then .error (l.fault stray arg "")
  else
    match arg.toList with
    | ['-', '-'] => .ok { l with trailing := true }
    | '-' :: '-' :: body => l.long body
    | '-' :: c :: letters => l.short (c :: letters)
    | _ =>
      match l.pending with
      | some (s, none) => .ok { l with pending := some (s, some arg) }
      | _ => .error (l.fault stray arg "")

/-- The arguments of a command. -/
def readAll (l : Level) : List String → Except Fault Level
  | [] => l.settle
  | arg :: args => do (← l.read .unknownArgument arg).readAll args

end Level

/-- The command with what was read for it. -/
def Verb.command (v : Verb) (l : Level) : Command :=
  match v with
  | .run => .run (l.has .yes)
  | .checkUpdate => .checkUpdate (l.has .yes)
  | .locate => .locate
  | .logs => .logs l.lines
  | .config => .config

/-- What the words behind `help` come to. Only one command can be named. -/
def helpFor : List String → Fault
  | [] => { kind := .help }
  | [name] =>
    match name == "help", Verb.ofName? name with
    | false, none => { kind := .invalidSubcommand, subject := name }
    | _, verb => { kind := .help, verb := verb }
  | _ :: name :: _ => { kind := .invalidSubcommand, subject := name }

/-- The fault of an argument of the program that belongs nowhere. Behind a double hyphen a command
loses its meaning. -/
def strayWord (l : Level) (arg : String) : FaultKind :=
  if l.trailing && (arg == "help" || (Verb.ofName? arg).isSome) then .unknownArgument
  else .invalidSubcommand

/-- The arguments of the program. A setting of the command wins over the same of the program. -/
def Level.readProgram (l : Level) : List String → Except Fault Invocation
  | [] => do
    let l ← l.settle
    .error (l.fault (if l.given.isEmpty then .nothingGiven else .missingSubcommand) "" "")
  | arg :: args =>
    match (if l.trailing || l.awaits then none else Verb.ofName? arg) with
    | some verb => do
      let inner ← ({ verb := some verb, known := verb.switches } : Level).readAll args
      let outer ← l.settle
      return ⟨outer.has .verbose || inner.has .verbose, inner.config.orElse fun _ => outer.config,
        verb.command inner⟩
    | none =>
      if !l.trailing && !l.awaits && arg == "help" then .error (helpFor args)
      else do (← l.read (strayWord l arg) arg).readProgram args

/-- The invocation that the arguments ask for. -/
def parse (args : List String) : Except Fault Invocation :=
  ({ known := programSwitches } : Level).readProgram args

end Steward.CommandLine
