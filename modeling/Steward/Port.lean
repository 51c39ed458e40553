import Steward.Failure

/-!
# Ports

A server that listens gets the port that the settings prefer, if it is free, and otherwise one that the
operating system hands out.
-/

namespace Steward.Port

/-- What the ports of a machine are like at one moment. -/
structure Sockets where
  /-- whether nobody listens on the port -/
  isFree : Nat → Bool
  /-- what is handed out to someone who takes any port -/
  handOut : Except OsError Nat

/-- Whether the preferred port is to be had; zero stands for no preference. -/
def Sockets.grants (s : Sockets) (preferred : Nat) : Bool := preferred != 0 && s.isFree preferred

def unavailable (e : OsError) : Failure := .process ("No free local port available: " ++ e.message)

/-- The port on which a server is to listen. -/
def negotiate (s : Sockets) (preferred : Nat) : Except Failure Nat :=
  if s.grants preferred then .ok preferred
  else
    match s.handOut with
    | .ok port => .ok port
    | .error e => .error (unavailable e)

end Steward.Port
