import Steward.Text.Numeral
import Steward.Text.Utf8

/-!
# Formatted output of shell commands

`echo` sets its arguments apart by blanks and understands escapes; `printf` repeats its format until the
arguments are used up, at least once. Octal escapes stand for single bytes.
-/

namespace Steward.Shell

open Steward.Text.Utf8 (Bytes encode encodeChar)

def octalDigit? (c : Char) : Option Nat :=
  if '0' ≤ c && c ≤ '7' then some (c.toNat - '0'.toNat) else none

/-- The byte of an octal number of at most `limit` digits, and what is behind it. -/
def octal (limit : Nat) (cs : List Char) : UInt8 × List Char :=
  let digits := (cs.take limit).takeWhile fun c => (octalDigit? c).isSome
  ((digits.foldl (fun n c => n * 8 + (octalDigit? c).getD 0) 0).toUInt8, cs.drop digits.length)

/-- The byte that a letter behind a backslash stands for. -/
def escape? : Char → Option UInt8
  | 'a' => some 7
  | 'b' => some 8
  | 'e' => some 27
  | 'f' => some 12
  | 'n' => some 10
  | 'r' => some 13
  | 't' => some 9
  | 'v' => some 11
  | '\\' => some 92
  | _ => none

/-! ## echo -/

/-- Text with its escapes replaced; tells whether output ends in the middle. Octal numbers have a zero
in front. -/
def unescape : Nat → List Char → Bytes × Bool
  | 0, _ => ([], false)
  | _ + 1, [] => ([], false)
  | fuel + 1, '\\' :: c :: cs =>
    if c == 'c' then ([], true)
    else if c == '0' then
      let (byte, rest) := octal 3 cs
      let (bytes, stop) := unescape fuel rest
      (byte :: bytes, stop)
    else
      match escape? c with
      | some byte =>
        let (bytes, stop) := unescape fuel cs
        (byte :: bytes, stop)
      | none =>
        let (bytes, stop) := unescape fuel (c :: cs)
        (92 :: bytes, stop)
  | fuel + 1, c :: cs =>
    let (bytes, stop) := unescape fuel cs
    (encodeChar c ++ bytes, stop)

/-- What `echo` writes. -/
def echo (args : List String) : Bytes :=
  let (newline, args) := match args with
    | "-n" :: rest => (false, rest)
    | _ => (true, args)
  let text := " ".intercalate args
  let (bytes, stop) := unescape (text.length + 1) text.toList
  if newline && !stop then bytes ++ [10] else bytes

/-! ## printf -/

/-- How a value is brought to its width. -/
structure Layout where
  left : Bool := false
  zeros : Bool := false
  width : Nat := 0
  precision : Option Nat := none
  deriving Repr, DecidableEq

def Layout.fit (l : Layout) (bytes : Bytes) : Bytes :=
  let missing := l.width - bytes.length
  if l.left then bytes ++ List.replicate missing 32
  else List.replicate missing (if l.zeros then 48 else 32) ++ bytes

/-- Reads flags, width and precision. -/
def layout (cs : List Char) : Layout × List Char :=
  let flags := cs.takeWhile fun c => c == '-' || c == '0' || c == '+' || c == ' ' || c == '#'
  let cs := cs.drop flags.length
  let width := cs.takeWhile Char.isDigit
  let cs := cs.drop width.length
  let (precision, cs) := match cs with
    | '.' :: cs =>
      let digits := cs.takeWhile Char.isDigit
      (some ((Text.decimal? digits).getD 0), cs.drop digits.length)
    | _ => (none, cs)
  ({ left := flags.contains '-'
     zeros := flags.contains '0' && !flags.contains '-'
     width := (Text.decimal? width).getD 0
     precision := precision }, cs)

/-- The number that an argument is. -/
def integer? (s : String) : Option Int :=
  match s.toList with
  | [] => some 0
  | '-' :: digits => (Text.decimal? digits).map fun n => -(n : Int)
  | '+' :: digits => (Text.decimal? digits).map fun n => (n : Int)
  | digits => (Text.decimal? digits).map fun n => (n : Int)

/-- What a directive makes of an argument; `none` if it cannot be read. -/
def directive (l : Layout) (kind : Char) (arg : String) : Option Bytes :=
  let digits (base : Nat) : Option (List Char) :=
    (integer? arg).map fun n => Nat.toDigits base (if n < 0 then (18446744073709551616 + n).toNat else n.toNat)
  match kind with
  | 's' =>
    let bytes := encode arg.toList
    some (l.fit (match l.precision with
      | some n => bytes.take n
      | none => bytes))
  | 'b' => some (l.fit (unescape (arg.length + 1) arg.toList).1)
  | 'c' => some (l.fit ((encode arg.toList).take 1))
  | 'x' => (digits 16).map fun ds => l.fit (encode ds)
  | 'X' => (digits 16).map fun ds => l.fit (encode (ds.map Char.toUpper))
  | 'o' => (digits 8).map fun ds => l.fit (encode ds)
  | 'u' => (digits 10).map fun ds => l.fit (encode ds)
  | _ => (integer? arg).map fun n => l.fit (encode (toString n).toList)

/-- The result of one pass over the format. -/
structure Pass where
  bytes : Bytes := []
  rest : List String := []
  faulty : Bool := false
  deriving Repr, DecidableEq

/-- One pass over the format. -/
def formatOnce : Nat → List Char → List String → Pass
  | 0, _, args => { rest := args }
  | _ + 1, [], args => { rest := args }
  | fuel + 1, '%' :: '%' :: cs, args =>
    let p := formatOnce fuel cs args
    { p with bytes := 37 :: p.bytes }
  | fuel + 1, '%' :: cs, args =>
    let (l, cs) := layout cs
    match cs with
    | [] => { rest := args, faulty := true }
    | kind :: cs =>
      let p := formatOnce fuel cs (args.drop 1)
      match directive l kind (args.head?.getD "") with
      | some bytes => { p with bytes := bytes ++ p.bytes }
      | none => { p with bytes := l.fit [48] ++ p.bytes, faulty := true }
  | fuel + 1, '\\' :: c :: cs, args =>
    if (octalDigit? c).isSome then
      let (byte, rest) := octal 3 (c :: cs)
      let p := formatOnce fuel rest args
      { p with bytes := byte :: p.bytes }
    else
      match escape? c with
      | some byte =>
        let p := formatOnce fuel cs args
        { p with bytes := byte :: p.bytes }
      | none =>
        if c == '"' then
          let p := formatOnce fuel cs args
          { p with bytes := 34 :: p.bytes }
        else
          let p := formatOnce fuel (c :: cs) args
          { p with bytes := 92 :: p.bytes }
  | fuel + 1, c :: cs, args =>
    let p := formatOnce fuel cs args
    { p with bytes := encodeChar c ++ p.bytes }

/-- Passes over the format until no arguments are left; a format that takes none is used once. -/
def formatAll (format : List Char) : Nat → List String → Bytes × Bool
  | 0, _ => ([], false)
  | fuel + 1, args =>
    let p := formatOnce (format.length + 1) format args
    if p.rest.isEmpty || p.rest.length == args.length then (p.bytes, p.faulty)
    else
      let (bytes, faulty) := formatAll format fuel p.rest
      (p.bytes ++ bytes, p.faulty || faulty)

/-- What `printf` writes, and whether an argument could not be read. -/
def printf (format : String) (args : List String) : Bytes × Bool :=
  formatAll format.toList (args.length + 1) args

end Steward.Shell
