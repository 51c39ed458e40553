import Steward.Call
import Steward.CommandLine.Report

/-!
# The dialogue of a running command

The command that keeps the server running activates the service and then listens: to lines of input, to
changes of what is published and to an interrupt. It deals with one thing at a time; while it carries
out a command it does not listen. The command that checks for updates only waits for its result.
-/

namespace Steward.Console

open Steward.CommandLine (Report)

inductive Phase where
  | checking
  | activating
  | listening
  | executing
  | deactivating
  | over
  deriving Repr, DecidableEq

/-- What the dialogue is told. -/
inductive Input where
  /-- the call it has made is over -/
  | finished (o : Outcome)
  | line (text : String)
  | closed
  | changed
  | interrupted
  deriving Repr, DecidableEq

/-- What the dialogue does. -/
inductive Action where
  | print (text : String)
  | call (c : Call)
  | conclude (r : Report)
  deriving Repr, DecidableEq

def help : String := "Commands: start, stop, restart, status, quit"

/-- What is shown of the definitions that are published. -/
def announcements : List Definition → List String
  | [] => ["Server definition withdrawn"]
  | ds => ds.map fun d => "Server definition: " ++ d.summary

/-- What is shown of an activation; one that has not started the server has shown that itself. -/
def welcome : Outcome → List String
  | .start (.started d) => [d.summary, help]
  | .start (.alreadyRunning d) => [d.summary, help]
  | _ => [help]

/-- Deals with a line of input. -/
def answerLine (state : Lifecycle.State) (text : String) : List Action × Phase :=
  match Text.trimmed text with
  | "" => ([], .listening)
  | "quit" => ([.call .deactivate], .deactivating)
  | "exit" => ([.call .deactivate], .deactivating)
  | "status" => ([.print state.status], .listening)
  | word =>
    match ServerCommand.parse word with
    | .ok _ => ([.call (.execute word)], .executing)
    | .error unknown => ([.print (unknown.failure.message ++ ". " ++ help)], .listening)

/-- One step of the dialogue. `state` and `published` are how things are with the server. -/
def react (state : Lifecycle.State) (published : List Definition) :
    Phase → Input → List Action × Phase
  | .checking, .finished (.check (some c)) => ([.conclude (.ofCheck c)], .over)
  | .activating, .finished o => ((welcome o).map .print, .listening)
  | .executing, .finished _ => ([], .listening)
  | .deactivating, .finished _ => ([.conclude (.success "Supervisor stopped")], .over)
  | .listening, .line text => answerLine state text
  | .listening, .closed => ([.call .deactivate], .deactivating)
  | .listening, .interrupted => ([.call .deactivate], .deactivating)
  | .listening, .changed => ((announcements published).map .print, .listening)
  | phase, _ => ([], phase)

end Steward.Console
