import Steward.Machine.Basic
import Steward.Shell.Condition

/-!
# Small programs

Programs that look at the files or change them and are done at once.
-/

namespace Steward

open Steward.Text.Utf8 (Bytes encode)

namespace Machine

/-- What such a program leaves behind. -/
structure Effect where
  stdout : Bytes := []
  stderr : String := ""
  code : Nat := 0
  files : Files

namespace Effect

def ok (fs : Files) : Effect := { files := fs }

def fail (fs : Files) (message : String) : Effect := { files := fs, stderr := message ++ "\n", code := 1 }

/-- The effect of one program on each of its operands, in order. -/
def each (fs : Files) (f : Files → String → Except String Files) (operands : List String) : Effect :=
  operands.foldl
    (fun e operand =>
      match f e.files operand with
      | .ok fs => { e with files := fs }
      | .error message => { e with stderr := e.stderr ++ message ++ "\n", code := 1 })
    (ok fs)

end Effect

/-- Leaves out the options in front of the operands. -/
def operands (args : List String) : List String := args.filter fun a => !"-".isPrefixOf a || a == "-"

def hasOption (args : List String) (letter : Char) : Bool :=
  args.any fun a => "-".isPrefixOf a && a.toList.contains letter

/-! ## Modes -/

/-- The bits of some permissions, for those they are given to. -/
def permissionBits (who what : List Char) : Nat :=
  let bits := (if what.contains 'r' then 4 else 0) + (if what.contains 'w' then 2 else 0) +
    (if what.contains 'x' then 1 else 0)
  let everyone := who.isEmpty || who.contains 'a'
  (if everyone || who.contains 'u' then bits * 64 else 0) +
    (if everyone || who.contains 'g' then bits * 8 else 0) +
    (if everyone || who.contains 'o' then bits else 0)

/-- The mode that a description makes of a mode. -/
def newMode? (description : String) (mode : Nat) : Option Nat :=
  let cs := description.toList
  match Text.digitsFrom 8 0 cs, cs with
  | some n, _ :: _ => some n
  | _, _ =>
    let who := cs.takeWhile fun c => "ugoa".toList.contains c
    match cs.drop who.length with
    | '+' :: what => some (mode ||| permissionBits who what)
    | '-' :: what => some (mode - (mode &&& permissionBits who what))
    | '=' :: what =>
      some (mode - (mode &&& permissionBits who ['r', 'w', 'x']) ||| permissionBits who what)
    | _ => none

def chmod (fs : Files) (description path : String) : Except String Files :=
  match fs.at? path with
  | none => .error ("chmod: cannot access '" ++ path ++ "': No such file or directory")
  | some (place, n) =>
    match newMode? description n.mode, n with
    | none, _ => .error ("chmod: invalid mode: '" ++ description ++ "'")
    | some mode, .file bytes _ => .ok (fs.put place (.file bytes mode))
    | some mode, .directory _ => .ok (fs.put place (.directory mode))
    | some _, .link _ => .ok fs

/-! ## Files -/

/-- The path that something named `source` gets at `target`, which may be a directory. -/
def destination (fs : Files) (source target : String) : String :=
  if fs.isDirectory target then Path.join target ((Path.pieces source).getLast?.getD "") else target

/-- Moves a node with everything below it. -/
def mv (fs : Files) (source target : String) : Except String Files :=
  match fs.resolve false source, fs.resolve false (destination fs source target) with
  | .ok (.found place n), .ok spot =>
    let goal := match spot with
      | .found goal _ => goal
      | .vacant goal => goal
    let below := fs.nodes.filterMap fun (p, n) =>
      match place.isPrefixOf? p with
      | some rest => if rest.isEmpty then none else some (goal ++ rest, n)
      | none => none
    if place == goal then .error ("mv: '" ++ source ++ "' and '" ++ target ++ "' are the same file")
    else
      let fs := ((fs.remove place).remove goal).put goal n
      .ok (below.foldl (fun fs (p, n) => fs.put p n) fs)
  | .ok (.found _ _), .error e =>
    .error ("mv: cannot move '" ++ source ++ "' to '" ++ target ++ "': " ++ e.text)
  | _, _ => .error ("mv: cannot stat '" ++ source ++ "': No such file or directory")

def cp (fs : Files) (source target : String) : Except String Files :=
  match fs.at? source with
  | some (_, .file bytes mode) =>
    let target := destination fs source target
    let isNew := !fs.exists? target
    match fs.openForWriting target with
    | .error e => .error ("cp: cannot create regular file '" ++ target ++ "': " ++ e.text)
    | .ok (place, fs) =>
      let fs := fs.change place fun _ => bytes
      .ok (if isNew then fs.put place (.file bytes mode) else fs)
  | some _ => .error ("cp: -r not specified; omitting directory '" ++ source ++ "'")
  | none => .error ("cp: cannot stat '" ++ source ++ "': No such file or directory")

def rm (force recursive : Bool) (fs : Files) (path : String) : Except String Files :=
  match fs.resolve false path with
  | .ok (.found place n) =>
    if n.isDirectory && !recursive then .error ("rm: cannot remove '" ++ path ++ "': Is a directory")
    else .ok (fs.remove place)
  | _ =>
    if force then .ok fs
    else .error ("rm: cannot remove '" ++ path ++ "': No such file or directory")

def mkdir (parents : Bool) (fs : Files) (path : String) : Except String Files :=
  match if parents then fs.makeDirectories path else fs.makeDirectory path with
  | .ok fs => .ok fs
  | .error e => .error ("mkdir: cannot create directory '" ++ path ++ "': " ++ e.text)

def touch (fs : Files) (path : String) : Except String Files :=
  if fs.exists? path then .ok fs
  else
    match fs.openForWriting path with
    | .ok (_, fs) => .ok fs
    | .error e => .error ("touch: cannot touch '" ++ path ++ "': " ++ e.text)

/-- A program with a source and a target. -/
def twoOperands (name : String) (fs : Files) (f : Files → String → String → Except String Files)
    (args : List String) : Effect :=
  match (operands args).reverse with
  | target :: source :: more =>
    Effect.each fs (fun fs source => f fs source target) (source :: more).reverse
  | [single] => .fail fs (name ++ ": missing destination file operand after '" ++ single ++ "'")
  | [] => .fail fs (name ++ ": missing file operand")

/-! ## All of them -/

/-- What a test prints if it cannot be read. -/
def testEffect (fs : Files) (name : String) (args : List String) : Effect :=
  match Shell.Condition.test fs args with
  | .malformed message => { files := fs, stderr := name ++ ": " ++ message ++ "\n", code := 2 }
  | v => { files := fs, code := v.status }

def utility (fs : Files) (v : Variables) (name : String) (args : List String) : Effect :=
  match name with
  | "true" => .ok fs
  | "false" => { files := fs, code := 1 }
  | "echo" => { files := fs, stdout := Shell.echo args }
  | "printf" =>
    match args with
    | format :: rest => { files := fs, stdout := (Shell.printf format rest).1 }
    | [] => .fail fs "printf: missing operand"
  | "test" => testEffect fs "test" args
  | "[" =>
    match args.getLast? with
    | some "]" => testEffect fs "[" args.dropLast
    | _ => { files := fs, stderr := "[: missing ]\n", code := 2 }
  | "pwd" => { files := fs, stdout := encode (Path.ofParts true fs.workingDirectory ++ "\n").toList }
  | "env" =>
    { files := fs
      stdout := encode (String.join (v.entries.map fun (n, value) => n ++ "=" ++ value ++ "\n")).toList }
  | "chmod" =>
    match args with
    | description :: rest => Effect.each fs (fun fs path => chmod fs description path) rest
    | [] => .fail fs "chmod: missing operand"
  | "mv" => twoOperands "mv" fs mv args
  | "cp" => twoOperands "cp" fs cp args
  | "rm" => Effect.each fs (rm (hasOption args 'f') (hasOption args 'r')) (operands args)
  | "mkdir" => Effect.each fs (mkdir (hasOption args 'p')) (operands args)
  | "touch" => Effect.each fs touch (operands args)
  | _ => .ok fs

end Machine

end Steward
