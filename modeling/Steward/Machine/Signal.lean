import Steward.Text.Numeral

/-!
# Signals

The signals that processes send each other, with their numbers, the names that shell scripts use and
what people are told about a process that one of them has ended.
-/

namespace Steward

inductive Signal where
  | hangup
  | interrupt
  | quit
  | kill
  | user1
  | user2
  | brokenPipe
  | alarm
  | terminate
  | child
  | resume
  deriving Repr, DecidableEq

namespace Signal

def all : List Signal :=
  [.hangup, .interrupt, .quit, .kill, .user1, .user2, .brokenPipe, .alarm, .terminate, .child, .resume]

def number : Signal → Nat
  | .hangup => 1
  | .interrupt => 2
  | .quit => 3
  | .kill => 9
  | .user1 => 10
  | .user2 => 12
  | .brokenPipe => 13
  | .alarm => 14
  | .terminate => 15
  | .child => 17
  | .resume => 18

def name : Signal → String
  | .hangup => "HUP"
  | .interrupt => "INT"
  | .quit => "QUIT"
  | .kill => "KILL"
  | .user1 => "USR1"
  | .user2 => "USR2"
  | .brokenPipe => "PIPE"
  | .alarm => "ALRM"
  | .terminate => "TERM"
  | .child => "CHLD"
  | .resume => "CONT"

/-- What is said about a process that the signal has ended. -/
def description : Signal → String
  | .hangup => "Hangup"
  | .interrupt => "Interrupt"
  | .quit => "Quit"
  | .kill => "Killed"
  | .user1 => "User defined signal 1"
  | .user2 => "User defined signal 2"
  | .brokenPipe => "Broken pipe"
  | .alarm => "Alarm clock"
  | .terminate => "Terminated"
  | .child => "Child exited"
  | .resume => "Continued"

/-- Whether the signal ends a process that has made no provision for it. -/
def endsProcess : Signal → Bool
  | .child => false
  | .resume => false
  | _ => true

/-- The signal with a number or name. -/
def ofText? (text : String) : Option Signal :=
  all.find? fun s =>
    s.name == text.toUpper || Text.decimal? text.toList == some s.number

end Signal

end Steward
