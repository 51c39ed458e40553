import Steward.Machine.Basic
import Steward.Shell.Parser

/-!
# Loading programs

A program is a file that may be executed. It is one of the machine's own programs, which carry a mark
and their name, or a script whose first line names the program that runs it. Anything else cannot be
loaded.
-/

namespace Steward

open Steward.Text.Utf8 (Bytes encode)

namespace Machine

/-! ## The machine's own programs -/

/-- What the file of such a program begins with. -/
def mark : Bytes := [0x7F, 0x45, 0x4C, 0x46]

def programNames : List String :=
  ["sh", "dash", "true", "false", "echo", "printf", "cat", "sleep", "chmod", "mv", "cp", "rm", "mkdir",
    "touch", "pwd", "env", "test", "[", "kill"]

/-- The files of a new machine. -/
def systemFiles : Files :=
  let bare : Files :=
    { nodes := [(["usr"], .directory 0o755), (["usr", "bin"], .directory 0o755), (["bin"], .link "usr/bin")] }
  programNames.foldl
    (fun fs name => fs.put ["usr", "bin", name] (.file (mark ++ encode name.toList) 0o755)) bare

/-- The machine's program that a file is. -/
def ownProgram? (bytes : Bytes) : Option String :=
  (mark.isPrefixOf? bytes).map fun name => String.ofList (Text.Utf8.decodeLossy name)

/-! ## Scripts -/

/-- The program that runs a script and the argument it gets first, as the script's first line says. -/
def interpreter? (bytes : Bytes) : Option (String × Option String) :=
  match bytes with
  | 35 :: 33 :: rest =>
    let line := Text.Utf8.decodeLossy (rest.takeWhile (· != 10))
    let isGap (c : Char) : Bool := c == ' ' || c == '\t'
    let line := Text.dropEndWhile isGap (line.dropWhile isGap)
    let program := line.takeWhile (!isGap ·)
    let arg := (line.drop program.length).dropWhile isGap
    if program.isEmpty then none
    else some (String.ofList program, if arg.isEmpty then none else some (String.ofList arg))
  | _ => none

/-- The file behind the path of a program. -/
def executable (fs : Files) (path : String) : Except OsError Bytes :=
  match fs.resolve true path with
  | .error e => .error e
  | .ok (.vacant _) => .error .notFound
  | .ok (.found _ (.file bytes mode)) =>
    if mode &&& 0o111 == 0 then .error .denied else .ok bytes
  | .ok (.found _ _) => .error .denied

/-- The path of a program; a bare name is looked for in the directories of the search path. -/
def findProgram (fs : Files) (v : Variables) (name : String) : Except OsError String :=
  if name.toList.contains '/' then .ok name
  else if name.isEmpty then .error .notFound
  else
    let candidates := (Text.splitAll ':' ((v.get? "PATH").getD "/usr/bin:/bin").toList).map fun dir =>
      Path.join (if dir.isEmpty then "." else String.ofList dir) name
    match candidates.find? fun path => (executable fs path).toOption.isSome with
    | some path => .ok path
    | none =>
      if candidates.any fun path => fs.exists? path then .error .denied else .error .notFound

/-! ## The beginning of a process -/

/-- A time span in milliseconds, rounded up. -/
def duration? (text : String) : Option Nat :=
  let cs := text.toList
  let (digits, factor) := match cs.reverse with
    | 's' :: rest => (rest.reverse, 1000)
    | 'm' :: rest => (rest.reverse, 60000)
    | 'h' :: rest => (rest.reverse, 3600000)
    | 'd' :: rest => (rest.reverse, 86400000)
    | _ => (cs, 1000)
  let whole := digits.takeWhile (· != '.')
  let fraction := (digits.drop whole.length).drop 1
  if whole.isEmpty && fraction.isEmpty then none
  else do
    let n ← Text.digitsFrom 10 0 (whole ++ fraction)
    let scale := Nat.pow 10 fraction.length
    return (n * factor + scale - 1) / scale

def sleepHint : String := "\nTry 'sleep --help' for more information."

/-- The process of `sleep`. -/
def sleepBody (now : Nat) (args : List String) : Body :=
  if args.contains "infinity" then .sleep none
  else
    match args.mapM duration? with
    | some (d :: ds) => .sleep (some (now + (d :: ds).foldl (· + ·) 0))
    | some [] => .complain ("sleep: missing operand" ++ sleepHint) 1
    | none =>
      let bad := (args.find? fun a => (duration? a).isNone).getD ""
      .complain ("sleep: invalid time interval '" ++ bad ++ "'" ++ sleepHint) 1

/-- A shell for the text of a script. -/
def shellBody (scope : Shell.Scope) (text : String) (last strict : Bool) : Body :=
  match Shell.parse text with
  | .ok script => .shell { Shell.start scope script last with strict := strict }
  | .error e => .complain (scope.name ++ ": 1: " ++ e.message) 2

/-- The letters behind the hyphens in front, and the other arguments. -/
def splitOptions : List String → List Char × List String
  | [] => ([], [])
  | a :: rest =>
    match a.toList with
    | '-' :: c :: letters =>
      let (more, rest) := splitOptions rest
      (c :: letters ++ more, rest)
    | _ => ([], a :: rest)

/-- The process of a shell. -/
def shell (fs : Files) (v : Variables) (pid : Nat) (called : String) (args : List String) : Body :=
  let (options, rest) := splitOptions args
  let strict := options.contains 'e'
  let v := v.set "PWD" (some (Path.ofParts true fs.workingDirectory))
  match options.contains 'c', rest with
  | true, text :: rest =>
    shellBody { name := rest.head?.getD called, arguments := rest.drop 1, environ := v, pid := pid }
      text true strict
  | true, [] => .complain (called ++ ": 0: -c requires an argument") 2
  | false, file :: rest =>
    match fs.read file with
    | .ok bytes =>
      shellBody { name := file, arguments := rest, environ := v, pid := pid }
        (String.ofList (Text.Utf8.decodeLossy bytes)) false strict
    | .error _ => .complain (called ++ ": 0: cannot open " ++ file ++ ": No such file") 2
  | false, [] =>
    .gather { Shell.start { name := called, environ := v, pid := pid } .skip false with
      strict := strict }

/-- The process of one of the machine's own programs. -/
def ownBody (m : Machine) (fs : Files) (v : Variables) (pid : Nat) (name called : String)
    (args : List String) : Body :=
  match name with
  | "sh" => shell fs v pid called args
  | "dash" => shell fs v pid called args
  | "sleep" => sleepBody m.now args
  | "cat" => .copy (if args.isEmpty then ["-"] else args)
  | _ => .utility name args

/-- How often a script may be run by a script. -/
def scriptDepth : Nat := 5

/-- The process of a program. -/
def load (m : Machine) (fs : Files) (v : Variables) (pid : Nat) (path called : String)
    (args : List String) : Nat → Except OsError Body
  | 0 => .error .tooManyLinks
  | depth + 1 => do
    let bytes ← executable fs path
    match ownProgram? bytes, interpreter? bytes with
    | some "env", _ =>
      match args with
      | name :: rest => m.load fs v pid (← findProgram fs v name) name rest depth
      | [] => return .utility "env" []
    | some name, _ => return m.ownBody fs v pid name called args
    | none, some (program, arg) =>
      m.load fs v pid program program (arg.toList ++ path :: args) depth
    | none, none => throw .badProgram

/-- Starts a program for the host, with the channels that the host gives it. -/
def spawn (m : Machine) (v : Variables) (program : String) (args : List String)
    (channels : Shell.Channels) : Except OsError (Nat × Machine) := do
  let path ← findProgram m.files v program
  let body ← m.load m.files v m.nextPid path program args scriptDepth
  return m.add {
    pid := 0
    parent := 0
    channels := channels
    directory := m.files.workingDirectory
    environ := v
    body := body }

end Machine

end Steward
