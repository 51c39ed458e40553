import Steward.Files
import Steward.Variables

/-!
# Finding a program

A bare name is looked for in the directories of a search path, in their order; a name with a directory
in it is taken from the working directory. What is found has to be a file that may be executed, and its
path is always absolute.
-/

namespace Steward.Tool

/-- The path of a place. -/
def pathOfPlace (p : Place) : String := Path.ofParts true p

/-- Whether a name says where the program is. -/
def hasDirectory (name : String) : Bool :=
  1 < (Path.parts name).length + (if Path.isAbsolute name then 1 else 0)

/-- An absolute path; dots in front of a relative one are left out. -/
def absolutePath (fs : Files) (path : String) : String :=
  if Path.isAbsolute path then path
  else
    ((Path.parts path).dropWhile (· == ".")).foldl Path.join (pathOfPlace fs.workingDirectory)

/-- A tilde in front stands for the home directory. -/
def expandHome (v : Variables) (path : String) : String :=
  match v.get? "HOME", Path.isAbsolute path, Path.parts path with
  | some home, false, "~" :: rest => rest.foldl Path.join home
  | _, _, _ => path

/-- Whether a path leads to a program. -/
def isProgram (fs : Files) (path : String) : Bool :=
  match fs.at? path with
  | some (_, n) => n.isFile && n.isExecutable
  | none => false

/-- The directories of a search path. -/
def searchDirectories (searchPath : String) : List String :=
  (Text.splitAll ':' searchPath.toList).map String.ofList

/-- The places where a program may be, in order. -/
def candidates (fs : Files) (v : Variables) (name : String) (searchPath : Option String) :
    List String :=
  if hasDirectory name then [absolutePath fs name]
  else
    match searchPath.orElse fun _ => v.get? "PATH" with
    | none => []
    | some "" => []
    | some path =>
      (searchDirectories path).map fun dir => absolutePath fs (Path.join (expandHome v dir) name)

/-- The path of a program. Without a search path of its own the environment's is used. -/
def locate (fs : Files) (v : Variables) (name : String) (searchPath : Option String) :
    Option String :=
  (candidates fs v name searchPath).find? (isProgram fs)

end Steward.Tool
