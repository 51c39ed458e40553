/-!
# Failures

What can go wrong is grouped by the part of the work it belongs to. A failure carries the wording of
its cause; where the cause is a document that cannot be read, there is none to give.
-/

namespace Steward

/-- The part of the work that failed. -/
inductive FailureKind where
  | process
  | config
  | install
  | version
  | host
  | io
  | json
  | http
  | timeout
  deriving Repr, DecidableEq

namespace FailureKind

/-- What the text of a failure starts with. -/
def heading : FailureKind → String
  | .process => "Process error: "
  | .config => "Configuration error: "
  | .install => "Install error: "
  | .version => "Version error: "
  | .host => "Host error: "
  | .io => "IO error: "
  | .json => "JSON error: "
  | .http => "HTTP error: "
  | .timeout => "Timeout error: "

/-- The code under which a failure is reported to other programs. -/
def code : FailureKind → String
  | .process => "PROCESS_ERROR"
  | .config => "CONFIG_ERROR"
  | .install => "INSTALL_ERROR"
  | .version => "VERSION_ERROR"
  | .host => "HOST_ERROR"
  | .io => "IO_ERROR"
  | .json => "JSON_ERROR"
  | .http => "HTTP_ERROR"
  | .timeout => "TIMEOUT_ERROR"

def all : List FailureKind :=
  [.process, .config, .install, .version, .host, .io, .json, .http, .timeout]

/-- The kind with that code. -/
def ofCode? (code : String) : Option FailureKind := all.find? fun k => k.code == code

end FailureKind

structure Failure where
  kind : FailureKind
  /-- the wording of the cause, if it has one -/
  detail : Option String
  deriving Repr, DecidableEq

namespace Failure

def process (detail : String) : Failure := ⟨.process, some detail⟩
def config (detail : String) : Failure := ⟨.config, some detail⟩
def install (detail : String) : Failure := ⟨.install, some detail⟩
def version (detail : String) : Failure := ⟨.version, some detail⟩
def host (detail : String) : Failure := ⟨.host, some detail⟩
def io (detail : String) : Failure := ⟨.io, some detail⟩

/-- A configuration file that is no TOML document or has values of the wrong type. -/
def unreadableConfig : Failure := ⟨.config, none⟩

/-- A text that is no JSON value of the expected form. -/
def unreadableJson : Failure := ⟨.json, none⟩

/-- A request that got no usable answer. -/
def noAnswer : Failure := ⟨.http, none⟩

/-- The text shown to people. -/
def message (f : Failure) : String := f.kind.heading ++ f.detail.getD ""

end Failure

/-- The refusals of the operating system that the program meets. -/
inductive OsError where
  | notFound
  | notPermitted
  | noChild
  | denied
  | exists
  | notDirectory
  | isDirectory
  | tooManyFiles
  | badProgram
  | tooManyLinks
  | brokenPipe
  | notEmpty
  deriving Repr, DecidableEq

namespace OsError

def number : OsError → Nat
  | .notPermitted => 1
  | .notFound => 2
  | .badProgram => 8
  | .noChild => 10
  | .denied => 13
  | .exists => 17
  | .notDirectory => 20
  | .isDirectory => 21
  | .tooManyFiles => 24
  | .brokenPipe => 32
  | .notEmpty => 39
  | .tooManyLinks => 40

def text : OsError → String
  | .notPermitted => "Operation not permitted"
  | .notFound => "No such file or directory"
  | .badProgram => "Exec format error"
  | .noChild => "No child processes"
  | .denied => "Permission denied"
  | .exists => "File exists"
  | .notDirectory => "Not a directory"
  | .isDirectory => "Is a directory"
  | .tooManyFiles => "Too many open files"
  | .brokenPipe => "Broken pipe"
  | .notEmpty => "Directory not empty"
  | .tooManyLinks => "Too many levels of symbolic links"

/-- The text with the number of the error behind it. -/
def message (e : OsError) : String :=
  let number := e.number
  e.text ++ s!" (os error {number})"

end OsError

end Steward
