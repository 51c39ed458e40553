import Steward.CommandLine.Parser

/-!
# What the command line says about itself

Help is laid out in two columns, of which the first is as wide as its longest entry. A mistake is
explained in one sentence, with the usage of the command where that helps.
-/

namespace Steward.CommandLine

def programName : String := "go-mcp-supervisor"

def versionText : String := programName ++ " 0.1.0"

def programSummary : String := "Supervises the go-mcp-server helper binary"

/-! ## Help -/

def Verb.summary : Verb → String
  | .run => "Start the server and accept start/stop/restart/status/quit on stdin"
  | .checkUpdate => "Compare the installed helper with the latest release"
  | .locate => "Print where the helper binary is installed"
  | .logs => "Show the helper's output log"
  | .config => "Print the effective configuration"

def Switch.summary (verb : Option Verb) : Switch → String
  | .verbose => "Enable verbose output"
  | .config => "Use this config file instead of ~/.go-mcp-supervisor/config.toml"
  | .help => "Print help"
  | .version => "Print version"
  | .yes =>
    match verb with
    | some .checkUpdate => "Install an available update without asking"
    | _ => "Answer every prompt with its first choice"
  | .lines => "Number of lines to show from the end"

/-- The first column of a switch. -/
def Switch.column (s : Switch) : String :=
  (match s.short? with
    | some c => String.ofList ['-', c, ',', ' ']
    | none => "    ") ++ s.shown

/-- The switches in the order in which help shows them. -/
def shownSwitches : Option Verb → List Switch
  | none => [.verbose, .config, .help, .version]
  | some .run => [.verbose, .yes, .config, .help]
  | some .checkUpdate => [.verbose, .yes, .config, .help]
  | some .logs => [.lines, .verbose, .config, .help]
  | some _ => [.verbose, .config, .help]

/-- Two columns, each line indented. -/
def columns (rows : List (String × String)) : List String :=
  let width := (rows.map (·.1.length)).foldl max 0
  rows.map fun (left, right) =>
    "  " ++ left ++ String.ofList (List.replicate (width - left.length + 2) ' ') ++ right

def helpVerb : String × String := ("help", "Print this message or the help of the given subcommand(s)")

def usage : Option Verb → String
  | none => "Usage: " ++ programName ++ " [OPTIONS] <COMMAND>"
  | some v => "Usage: " ++ programName ++ " " ++ v.name ++ " [OPTIONS]"

def helpText (verb : Option Verb) : String :=
  let commands := match verb with
    | none => "Commands:" :: columns (Verb.all.map (fun v => (v.name, v.summary)) ++ [helpVerb]) ++ [""]
    | some _ => []
  let options := "Options:" :: columns ((shownSwitches verb).map fun s => (s.column, s.summary verb))
  let summary := (verb.map Verb.summary).getD programSummary
  "\n".intercalate ([summary, "", usage verb, ""] ++ commands ++ options)

/-! ## Mistakes -/

/-- Why a number of lines cannot be read. -/
def numeralFault (value : String) : String :=
  match value.toList with
  | [] => "cannot parse integer from empty string"
  | cs =>
    let digits := match cs with
      | '+' :: rest => rest
      | other => other
    if (Text.decimal? digits).isSome then "number too large to fit in target type"
    else "invalid digit found in string"

/-- What is wrong, in one sentence. -/
def Fault.sentence (f : Fault) : String :=
  match f.kind with
  | .argumentConflict => "the argument '" ++ f.subject ++ "' cannot be used multiple times"
  | .tooManyValues =>
    "unexpected value '" ++ f.value ++ "' for '" ++ f.subject ++ "' found; no more were expected"
  | .unknownArgument => "unexpected argument '" ++ f.subject ++ "' found"
  | .invalidSubcommand => "unrecognized subcommand '" ++ f.subject ++ "'"
  | .invalidValue => "a value is required for '" ++ f.subject ++ "' but none was supplied"
  | .valueValidation =>
    "invalid value '" ++ f.value ++ "' for '" ++ f.subject ++ "': " ++ numeralFault f.value
  | _ =>
    "'" ++ programName ++ "' requires a subcommand but one was not provided\n  [subcommands: " ++
      ", ".intercalate (Verb.all.map Verb.name ++ [helpVerb.1]) ++ "]"

/-- Whether the usage is shown; a wrong value has nothing to do with it. -/
def FaultKind.showsUsage : FaultKind → Bool
  | .invalidValue => false
  | .valueValidation => false
  | _ => true

/-- What is printed in place of an invocation. -/
def Fault.text (f : Fault) : String :=
  match f.kind with
  | .version => versionText
  | .help => helpText f.verb
  | .nothingGiven => helpText none
  | kind =>
    "error: " ++ f.sentence ++ "\n\n" ++ (if kind.showsUsage then usage f.verb ++ "\n\n" else "") ++
      "For more information, try '--help'."

end Steward.CommandLine
