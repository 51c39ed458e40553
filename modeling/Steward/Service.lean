import Steward.ServerCommand
import Steward.Tool.Identity
import Steward.Tool.Toolchain
import Steward.Program

/-!
# The service that is kept running

Which tool it is, how it is installed, under what name it is published and how patient one is with it.
-/

namespace Steward

structure Service where
  serverName : String := defaultServerName
  identity : Tool.Identity
  toolchain : Tool.Toolchain := {}
  /-- tags that start with it are no releases -/
  excludedTagStart : String := "vscext"
  /-- how long a stopped child has before it is killed, in milliseconds -/
  stopGrace : Nat := 5000
  /-- the same at the very end -/
  shutdownGrace : Nat := 5000
  checkOnActivation : Bool := true
  /-- the turns that the two version look-ups take -/
  turns : List Program.Side := []

namespace Service

/-- How messages call the tool. -/
def tool (s : Service) : String := s.identity.display

end Service

end Steward
