import Steward.Failure
import Steward.Path
import Steward.Text.Utf8

/-!
# Files

A tree of files as a value. Nodes are kept under their place, the list of names from the root. Following
a path goes name by name, through links, and says either what is at its end or that the place is vacant.
-/

namespace Steward

inductive Node where
  | file (bytes : Text.Utf8.Bytes) (mode : Nat)
  | directory (mode : Nat)
  | link (target : String)
  deriving Repr, DecidableEq

namespace Node

def isDirectory : Node → Bool
  | .directory _ => true
  | _ => false

def isFile : Node → Bool
  | .file .. => true
  | _ => false

def mode : Node → Nat
  | .file _ mode => mode
  | .directory mode => mode
  | .link _ => 0o777

/-- Whether its owner may execute it. -/
def isExecutable (n : Node) : Bool := n.mode / 64 % 2 == 1

end Node

/-- Names from the root. -/
abbrev Place := List String

structure Files where
  workingDirectory : Place := []
  nodes : List (Place × Node) := []

/-- What is at the end of a path. -/
inductive Spot where
  | found (place : Place) (node : Node)
  /-- nothing, but the directory it would be in is there -/
  | vacant (place : Place)
  deriving Repr, DecidableEq

namespace Files

def defaultFileMode : Nat := 0o644
def defaultDirectoryMode : Nat := 0o755

def node? (fs : Files) (p : Place) : Option Node :=
  if p.isEmpty then some (.directory defaultDirectoryMode) else fs.nodes.lookup p

/-- Puts a node at a place. -/
def put (fs : Files) (p : Place) (n : Node) : Files :=
  { fs with nodes := (p, n) :: fs.nodes.filter (·.1 != p) }

/-- Takes away a node and everything below it. -/
def remove (fs : Files) (p : Place) : Files :=
  { fs with nodes := fs.nodes.filter fun (q, _) => !p.isPrefixOf q }

/-- How many links a path may lead through. -/
def linkLimit : Nat := 40

/-- The names of a path; one that ends in a slash has to lead to a directory. -/
def names (path : String) : List String :=
  Path.pieces path ++ (if path.toList.getLast? == some '/' then ["."] else [])

/-- Goes on from a place along `names`. The last name is followed through a link only if `follow`. -/
def walk (fs : Files) (follow : Bool) : Nat → Nat → Place → List String → Except OsError Spot
  | 0, _, _, _ => .error .tooManyLinks
  | _ + 1, _, here, [] =>
    match fs.node? here with
    | some n => .ok (.found here n)
    | none => .ok (.vacant here)
  | steps + 1, links, here, name :: rest =>
    match fs.node? here with
    | none => .error .notFound
    | some (.directory _) =>
      if name == "." then walk fs follow steps links here rest
      else if name == ".." then walk fs follow steps links here.dropLast rest
      else
        let there := here ++ [name]
        match fs.node? there with
        | some (.link target) =>
          if rest.isEmpty && !follow then .ok (.found there (.link target))
          else
            match links with
            | 0 => .error .tooManyLinks
            | links + 1 =>
              walk fs follow steps links (if Path.isAbsolute target then [] else here)
                (names target ++ rest)
        | _ => walk fs follow steps links there rest
    | some _ => .error .notDirectory

/-- How many names a path may lead through, links included. -/
def stepLimit : Nat := 4096

/-- What is at the end of a path. -/
def resolve (fs : Files) (follow : Bool) (path : String) : Except OsError Spot :=
  if path.isEmpty then .error .notFound
  else
    fs.walk follow stepLimit linkLimit (if Path.isAbsolute path then [] else fs.workingDirectory)
      (names path)

/-- What a path leads to, if it leads anywhere. -/
def at? (fs : Files) (path : String) : Option (Place × Node) :=
  match fs.resolve true path with
  | .ok (.found place n) => some (place, n)
  | _ => none

def exists? (fs : Files) (path : String) : Bool := (fs.at? path).isSome

def isDirectory (fs : Files) (path : String) : Bool := (fs.at? path).any (·.2.isDirectory)

/-! ## Reading -/

def read (fs : Files) (path : String) : Except OsError Text.Utf8.Bytes :=
  match fs.resolve true path with
  | .ok (.found _ (.file bytes _)) => .ok bytes
  | .ok (.found _ _) => .error .isDirectory
  | .ok (.vacant _) => .error .notFound
  | .error e => .error e

/-- The text of a file. -/
def readText (fs : Files) (path : String) : Except Failure (List Char) :=
  match fs.read path with
  | .error e => .error (.io e.message)
  | .ok bytes =>
    match Text.Utf8.decode bytes with
    | .ok cs => .ok cs
    | .error _ => .error (.io "stream did not contain valid UTF-8")

/-! ## Writing -/

/-- The place that a path opens for writing; a new file is made if nothing is there. -/
def openForWriting (fs : Files) (path : String) : Except OsError (Place × Files) :=
  match fs.resolve true path with
  | .ok (.found place (.file _ _)) => .ok (place, fs)
  | .ok (.found _ _) => .error .isDirectory
  | .ok (.vacant place) =>
    if path.toList.getLast? == some '/' then .error .isDirectory
    else .ok (place, fs.put place (.file [] defaultFileMode))
  | .error e => .error e

/-- Changes the bytes of the file at a place. -/
def change (fs : Files) (place : Place) (f : Text.Utf8.Bytes → Text.Utf8.Bytes) : Files :=
  match fs.node? place with
  | some (.file bytes mode) => fs.put place (.file (f bytes) mode)
  | _ => fs

/-- Replaces the bytes of a file. -/
def write (fs : Files) (path : String) (bytes : Text.Utf8.Bytes) : Except OsError Files := do
  let (place, fs) ← fs.openForWriting path
  return fs.change place fun _ => bytes

/-- Puts bytes behind those of a file. -/
def append (fs : Files) (path : String) (bytes : Text.Utf8.Bytes) : Except OsError Files := do
  let (place, fs) ← fs.openForWriting path
  return fs.change place (· ++ bytes)

/-- Makes one directory. -/
def makeDirectory (fs : Files) (path : String) : Except OsError Files :=
  let bare := Path.ofParts (Path.isAbsolute path) (Path.pieces path)
  match fs.resolve false bare with
  | .ok (.found _ _) => .error .exists
  | .ok (.vacant place) => .ok (fs.put place (.directory defaultDirectoryMode))
  | .error e => .error e

/-- Makes the directory with the given parts, innermost first, and those it is in. -/
def makeAll (fs : Files) (absolute : Bool) : List String → Except OsError Files
  | [] => .ok fs
  | part :: outer =>
    let path := Path.ofParts absolute (part :: outer).reverse
    match fs.makeDirectory path with
    | .ok fs => .ok fs
    | .error .notFound =>
      match fs.makeAll absolute outer with
      | .error e => .error e
      | .ok fs =>
        match fs.makeDirectory path with
        | .ok fs => .ok fs
        | .error e => if fs.isDirectory path then .ok fs else .error e
    | .error e => if fs.isDirectory path then .ok fs else .error e

/-- Makes a directory and those it is in, as far as they are missing. -/
def makeDirectories (fs : Files) (path : String) : Except OsError Files :=
  fs.makeAll (Path.isAbsolute path) (Path.parts path).reverse

/-! ## Listing -/

/-- The regular files below a place, as paths from there in order. -/
def regularFiles (fs : Files) (root : Place) : List String :=
  let below := fs.nodes.filterMap fun (p, n) =>
    match root.isPrefixOf? p, n.isFile with
    | some rest, true => some ("/".intercalate rest)
    | _, _ => none
  below.mergeSort fun a b => !(decide (b < a))

end Files

end Steward
