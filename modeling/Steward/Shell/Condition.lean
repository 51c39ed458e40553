import Steward.Files
import Steward.Shell.Format

/-!
# Conditions of shell scripts

What `test` decides: about texts, whole numbers and files. The number of arguments says how they are to
be read.
-/

namespace Steward.Shell.Condition

/-- What a test comes to. -/
inductive Verdict where
  | holds
  | fails
  /-- it cannot be read -/
  | malformed (message : String)
  deriving Repr, DecidableEq

namespace Verdict

def ofBool (b : Bool) : Verdict := if b then .holds else .fails

def negate : Verdict → Verdict
  | .holds => .fails
  | .fails => .holds
  | v => v

/-- The exit code of the command. -/
def status : Verdict → Nat
  | .holds => 0
  | .fails => 1
  | .malformed _ => 2

end Verdict

def unary? (fs : Files) (op arg : String) : Option Bool :=
  let node := fs.at? arg
  match op with
  | "-n" => some !arg.isEmpty
  | "-z" => some arg.isEmpty
  | "-e" => some node.isSome
  | "-f" => some (node.any (·.2.isFile))
  | "-d" => some (node.any (·.2.isDirectory))
  | "-r" => some node.isSome
  | "-w" => some node.isSome
  | "-x" => some (node.any fun n => n.2.isDirectory || n.2.mode % 512 &&& 0o111 != 0)
  | "-s" => some (node.any fun n =>
      match n.2 with
      | .file bytes _ => !bytes.isEmpty
      | _ => true)
  | "-L" | "-h" => some (match fs.resolve false arg with
      | .ok (.found _ (.link _)) => true
      | _ => false)
  | _ => none

def compare? : String → Option (Int → Int → Bool)
  | "-eq" => some fun a b => a == b
  | "-ne" => some fun a b => a != b
  | "-lt" => some fun a b => a < b
  | "-le" => some fun a b => a ≤ b
  | "-gt" => some fun a b => b < a
  | "-ge" => some fun a b => b ≤ a
  | _ => none

def binary (a op b : String) : Option Verdict :=
  match op with
  | "=" => some (.ofBool (a == b))
  | "!=" => some (.ofBool (a != b))
  | _ =>
    (compare? op).map fun holds =>
      match integer? a, integer? b with
      | some m, some n => .ofBool (holds m n)
      | none, _ => .malformed ("Illegal number: " ++ a)
      | _, none => .malformed ("Illegal number: " ++ b)

def both : Verdict → Verdict → Verdict
  | .malformed m, _ => .malformed m
  | _, .malformed m => .malformed m
  | .holds, .holds => .holds
  | _, _ => .fails

def either : Verdict → Verdict → Verdict
  | .malformed m, _ => .malformed m
  | _, .malformed m => .malformed m
  | .fails, .fails => .fails
  | _, _ => .holds

/-- One condition of at most four arguments. -/
def basic (fs : Files) : List String → Verdict
  | [] => .fails
  | [a] => .ofBool !a.isEmpty
  | ["!", a] => .ofBool a.isEmpty
  | [op, a] =>
    match unary? fs op a with
    | some b => .ofBool b
    | none => .malformed (op ++ ": unexpected operator")
  | ["!", op, a] =>
    match binary "!" op a, unary? fs op a with
    | some v, _ => v
    | none, some b => .ofBool !b
    | none, none => .malformed (op ++ ": unexpected operator")
  | [a, op, b] => (binary a op b).getD (.malformed (op ++ ": unexpected operator"))
  | ["!", a, op, b] => ((binary a op b).map (·.negate)).getD (.malformed (op ++ ": unexpected operator"))
  | _ :: op :: _ => .malformed (op ++ ": unexpected operator")

/-- Conditions joined by `-a` and `-o`; the first binds more tightly. -/
def evaluate (fs : Files) : Nat → List String → Verdict
  | 0, args => basic fs args
  | fuel + 1, args =>
    if args.length ≤ 3 then basic fs args
    else
      match args.idxOf? "-o", args.idxOf? "-a" with
      | some i, _ => either (evaluate fs fuel (args.take i)) (evaluate fs fuel (args.drop (i + 1)))
      | none, some i => both (evaluate fs fuel (args.take i)) (evaluate fs fuel (args.drop (i + 1)))
      | none, none => basic fs args

/-- What `test` says about its arguments. -/
def test (fs : Files) (args : List String) : Verdict := evaluate fs args.length args

end Steward.Shell.Condition
