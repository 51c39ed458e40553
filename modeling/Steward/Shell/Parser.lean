import Steward.Shell.Token

/-!
# Reading shell scripts

A script is a list of pipelines. Reserved words count only where a command begins, and only if nothing
in them is quoted.

Each reader takes tokens from the front of a list and gives the rest back. They count down from the
number of tokens: none calls another without having taken a token, apart from a few steps inwards, for
which the count has room.
-/

namespace Steward.Shell

namespace Token

/-- The word that the token may be reserved as. -/
def bare? : Token → Option String
  | .word w => w.bare?
  | _ => none

/-- How an error calls the token. -/
def shown : Token → String
  | .word w =>
    match w.bare? with
    | some text => if text.isEmpty then "word" else "\"" ++ text ++ "\""
    | none => "word"
  | .operator text => "\"" ++ text ++ "\""
  | .redirect _ _ => "redirection"
  | .newline => "newline"

end Token

/-- Words that end a list of commands. -/
def closers : List String := ["then", "else", "elif", "fi", "do", "done", "esac", "\x7d"]

/-- The first token, or the end, is in the wrong place. -/
def misplaced (expected : Option String) : List Placed → SyntaxError
  | [] => .unexpected none expected
  | t :: _ => .unexpected (some t.token.shown) expected

def unexpectedToken {α : Type} (ts : List Placed) : Except SyntaxError (α × List Placed) :=
  .error (misplaced none ts)

def skipNewlines : List Placed → List Placed
  | t :: ts => if t.token == .newline then skipNewlines ts else t :: ts
  | [] => []

def expectWord (text : String) : List Placed → Except SyntaxError (Unit × List Placed)
  | t :: ts =>
    if t.token.bare? == some text then .ok ((), ts) else .error (misplaced (some text) (t :: ts))
  | [] => .error (misplaced (some text) [])

def expectOperator (text : String) : List Placed → Except SyntaxError (Unit × List Placed)
  | t :: ts =>
    if t.token == .operator text then .ok ((), ts) else .error (misplaced (some text) (t :: ts))
  | [] => .error (misplaced (some text) [])

/-! ## Simple commands -/

/-- Splits a word into the name of a variable and the word that is assigned to it. -/
def assignment? : Word → Option (String × Word)
  | .literal text false :: ps =>
    let cs := text.toList
    let name := cs.takeWhile isNameChar
    match name, cs.drop name.length with
    | c :: _, '=' :: value =>
      if isNameStart c then
        some (String.ofList name,
          if value.isEmpty then ps else .literal (String.ofList value) false :: ps)
      else none
    | _, _ => none
  | _ => none

/-- The redirection of an operator. -/
def redirectOf (descriptor : Option Nat) (op : String) (target : Word) : Redirect :=
  match op with
  | "<" => ⟨descriptor.getD 0, .read, target⟩
  | "<&" => ⟨descriptor.getD 0, .duplicate, target⟩
  | ">>" => ⟨descriptor.getD 1, .append, target⟩
  | ">&" => ⟨descriptor.getD 1, .duplicate, target⟩
  | _ => ⟨descriptor.getD 1, .write, target⟩

/-- The redirections at the front. -/
def readRedirects : List Placed → Except SyntaxError (List Redirect × List Placed)
  | ⟨.redirect descriptor op, _⟩ :: ⟨.word target, _⟩ :: ts => do
    let (rs, rest) ← readRedirects ts
    return (redirectOf descriptor op target :: rs, rest)
  | ⟨.redirect _ _, _⟩ :: ts => unexpectedToken ts
  | ts => .ok ([], ts)

/-- Assignments, words and redirections, in the order in which they stand. -/
def readSimple (s : Simple) : List Placed → Except SyntaxError (Simple × List Placed)
  | ⟨.redirect descriptor op, _⟩ :: ⟨.word target, _⟩ :: ts =>
    readSimple { s with redirects := s.redirects ++ [redirectOf descriptor op target] } ts
  | ⟨.redirect _ _, _⟩ :: ts => unexpectedToken ts
  | ⟨.word w, _⟩ :: ts =>
    match s.words.isEmpty, assignment? w with
    | true, some a => readSimple { s with assignments := s.assignments ++ [a] } ts
    | _, _ => readSimple { s with words := s.words ++ [w] } ts
  | ts => .ok (s, ts)

/-- The words of a `for` up to the end of their line. -/
def readWords : List Placed → List Word × List Placed
  | ⟨.word w, _⟩ :: ts =>
    let (ws, rest) := readWords ts
    (w :: ws, rest)
  | ts => ([], ts)

/-- Whether a list of commands ends here. -/
def atEnd : List Placed → Bool
  | [] => true
  | t :: _ =>
    t.token == .operator ")" || t.token == .operator ";;" ||
      t.token.bare?.any closers.contains

/-- The patterns of an arm, up to the closing parenthesis. -/
def readPatterns : List Placed → Except SyntaxError (List Word × List Placed)
  | ⟨.word w, _⟩ :: ⟨.operator "|", _⟩ :: ts => do
    let (ws, rest) ← readPatterns ts
    return (w :: ws, rest)
  | ⟨.word w, _⟩ :: ⟨.operator ")", _⟩ :: ts => .ok ([w], ts)
  | ⟨.word _, _⟩ :: ts => .error (misplaced (some ")") ts)
  | ts => unexpectedToken ts

/-! ## Structure -/

mutual

/-- Commands one behind the other, up to what ends the list. -/
def readList : Nat → List Placed → Except SyntaxError (Script × List Placed)
  | 0, ts => unexpectedToken ts
  | fuel + 1, ts => do
    let ts := skipNewlines ts
    if atEnd ts then return (.skip, ts)
    let (first, ts) ← readAndOr fuel ts
    match ts with
    | ⟨.operator "&", _⟩ :: rest =>
      let (second, rest) ← readList fuel rest
      return (join (.background first) second, rest)
    | ⟨.operator ";", _⟩ :: rest =>
      let (second, rest) ← readList fuel rest
      return (join first second, rest)
    | ⟨.newline, _⟩ :: rest =>
      let (second, rest) ← readList fuel rest
      return (join first second, rest)
    | _ => if atEnd ts then return (first, ts) else unexpectedToken ts
where
  join (first second : Script) : Script :=
    match second with
    | .skip => first
    | _ => .sequence first second

/-- Pipelines joined by `&&` and `||`, from left to right. -/
def readAndOr : Nat → List Placed → Except SyntaxError (Script × List Placed)
  | 0, ts => unexpectedToken ts
  | fuel + 1, ts => do
    let (first, ts) ← readPipeline fuel ts
    readAndOrBehind fuel first ts

def readAndOrBehind : Nat → Script → List Placed → Except SyntaxError (Script × List Placed)
  | 0, _, ts => unexpectedToken ts
  | fuel + 1, first, ⟨.operator "&&", _⟩ :: ts => do
    let (second, ts) ← readPipeline fuel (skipNewlines ts)
    readAndOrBehind fuel (.both first second) ts
  | fuel + 1, first, ⟨.operator "||", _⟩ :: ts => do
    let (second, ts) ← readPipeline fuel (skipNewlines ts)
    readAndOrBehind fuel (.either first second) ts
  | _ + 1, first, ts => .ok (first, ts)

def readPipeline : Nat → List Placed → Except SyntaxError (Script × List Placed)
  | 0, ts => unexpectedToken ts
  | fuel + 1, ts =>
    match ts with
    | t :: rest =>
      if t.token.bare? == some "!" then do
        let (body, rest) ← readPipes fuel rest
        return (.negate body, rest)
      else readPipes fuel ts
    | [] => .error .unexpectedEnd

def readPipes : Nat → List Placed → Except SyntaxError (Script × List Placed)
  | 0, ts => unexpectedToken ts
  | fuel + 1, ts => do
    let (first, ts) ← readCommand fuel ts
    match ts with
    | ⟨.operator "|", _⟩ :: rest =>
      let (second, rest) ← readPipes fuel (skipNewlines rest)
      return (.pipe first second, rest)
    | _ => return (first, ts)

/-- One command with what is redirected for it. -/
def readCommand : Nat → List Placed → Except SyntaxError (Script × List Placed)
  | 0, ts => unexpectedToken ts
  | _ + 1, [] => .error .unexpectedEnd
  | fuel + 1, t :: ts =>
    match readCompound? fuel (t :: ts) with
    | some parsed => do
      let (body, rest) ← parsed
      let (rs, rest) ← readRedirects rest
      return (if rs.isEmpty then body else .redirected t.line body rs, rest)
    | none =>
      match t.token, ts with
      | .word w, ⟨.operator "(", _⟩ :: ⟨.operator ")", _⟩ :: rest =>
        match w.bare? with
        | some name => do
          let (body, rest) ← readCommand fuel (skipNewlines rest)
          return (.define name body, rest)
        | none => unexpectedToken ts
      | .word _, _ => do
        let (s, rest) ← readSimple { line := t.line } (t :: ts)
        return (.simple s, rest)
      | .redirect _ _, _ => do
        let (s, rest) ← readSimple { line := t.line } (t :: ts)
        return (.simple s, rest)
      | _, _ => unexpectedToken (t :: ts)

/-- A command with structure; `none` if none begins here. -/
def readCompound? : Nat → List Placed → Option (Except SyntaxError (Script × List Placed))
  | 0, _ => none
  | _ + 1, [] => none
  | fuel + 1, t :: ts =>
    if t.token == .operator "(" then some do
      let (body, ts) ← readList fuel ts
      let (_, ts) ← expectOperator ")" ts
      return (.subshell body, ts)
    else
      match t.token.bare? with
      | some "\x7b" => some do
        let (body, ts) ← readList fuel ts
        let (_, ts) ← expectWord "\x7d" ts
        return (body, ts)
      | some "if" => some (readBranch fuel ts)
      | some "while" => some (readLoop false fuel ts)
      | some "until" => some (readLoop true fuel ts)
      | some "for" => some (readEach fuel ts)
      | some "case" => some do
        match ts with
        | ⟨.word w, _⟩ :: ts =>
          let (_, ts) ← expectWord "in" (skipNewlines ts)
          readArms fuel w ts
        | _ => unexpectedToken ts
      | some text => if closers.contains text then some (unexpectedToken (t :: ts)) else none
      | none => none

/-- The rest of an `if`, behind that word or behind `elif`. -/
def readBranch : Nat → List Placed → Except SyntaxError (Script × List Placed)
  | 0, ts => unexpectedToken ts
  | fuel + 1, ts => do
    let (condition, ts) ← readList fuel ts
    let (_, ts) ← expectWord "then" ts
    let (yes, ts) ← readList fuel ts
    match ts with
    | t :: rest =>
      match t.token.bare? with
      | some "elif" =>
        let (no, rest) ← readBranch fuel rest
        return (.branch condition yes no, rest)
      | some "else" =>
        let (no, rest) ← readList fuel rest
        let (_, rest) ← expectWord "fi" rest
        return (.branch condition yes no, rest)
      | _ =>
        let (_, rest) ← expectWord "fi" ts
        return (.branch condition yes .skip, rest)
    | [] => throw (misplaced (some "fi") [])

/-- The rest of a `while` or `until`. -/
def readLoop (untilSuccess : Bool) : Nat → List Placed → Except SyntaxError (Script × List Placed)
  | 0, ts => unexpectedToken ts
  | fuel + 1, ts => do
    let (condition, ts) ← readList fuel ts
    let (body, ts) ← readBlock fuel ts
    return (.loop untilSuccess condition body, ts)

def readBlock : Nat → List Placed → Except SyntaxError (Script × List Placed)
  | 0, ts => unexpectedToken ts
  | fuel + 1, ts => do
    let (_, ts) ← expectWord "do" ts
    let (body, ts) ← readList fuel ts
    let (_, ts) ← expectWord "done" ts
    return (body, ts)

/-- The rest of a `for`. -/
def readEach : Nat → List Placed → Except SyntaxError (Script × List Placed)
  | 0, ts => unexpectedToken ts
  | fuel + 1, t :: ts =>
    match (t.token.bare?).filter fun name => name.toList.head?.any isNameStart with
    | none => .error .badLoopVariable
    | some name => do
      let rest := skipNewlines ts
      let (words, rest) : Option (List Word) × List Placed :=
        match rest with
        | w :: more =>
          if w.token.bare? == some "in" then
            let (ws, more) := readWords more
            (some ws, more)
          else (none, rest)
        | [] => (none, [])
      if words.isSome && rest.isEmpty then throw .unexpectedEnd
      let rest := match rest with
        | ⟨.operator ";", _⟩ :: more => more
        | other => other
      let (body, rest) ← readBlock fuel (skipNewlines rest)
      return (.each name words body, rest)
  | _ + 1, [] => .error .badLoopVariable

/-- The arms of a `case` up to `esac`. -/
def readArms : Nat → Word → List Placed → Except SyntaxError (Script × List Placed)
  | 0, _, ts => unexpectedToken ts
  | fuel + 1, w, ts => do
    match skipNewlines ts with
    | [] => throw (misplaced (some ")") [])
    | t :: rest =>
      if t.token.bare? == some "esac" then return (.skip, rest)
      let (ps, rest) ← readPatterns (if t.token == .operator "(" then rest else t :: rest)
      let (body, rest) ← readList fuel rest
      match skipNewlines rest with
      | ⟨.operator ";;", _⟩ :: rest =>
        let (others, rest) ← readArms fuel w rest
        return (.arm w ps body others, rest)
      | rest =>
        let (_, rest) ← expectWord "esac" rest
        return (.arm w ps body .skip, rest)

end

/-- The script of a text. -/
def parse (text : String) : Except SyntaxError Script := do
  let ts ← tokens text.toList
  let (script, rest) ← readList (8 * (ts.length + 1)) ts
  if rest.isEmpty then return script
  else
    let (_, _) ← (unexpectedToken rest : Except SyntaxError (Unit × List Placed))
    return script

end Steward.Shell
