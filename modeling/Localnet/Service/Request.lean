import Localnet.Config.File
import Localnet.Config.Standard
import Localnet.Network.Call

/-!
What the commands need from outside: files, a terminal, and one network at the most.
-/

namespace Localnet.Service

inductive Request where
  | say (line : String)
  | read (path : String)
  | identities
  | create (config : NetworkConfig)
  /-- The time now, in milliseconds since the clock began. -/
  | clock
  /-- Waits until the network is healthy, at most until a moment of the clock. -/
  | healthy (deadline : Nat)
  | call (call : Call)
  | interrupt

abbrev Request.Reply : Request → Type
  | .say _ => Unit
  | .read _ => Except SystemError ByteArray
  | .identities => Except Failure (Nat → StakingIdentity)
  | .create _ => Except NetworkError Network
  | .clock => Nat
  | .healthy _ => Except NetworkError Unit
  | .call _ => Except NetworkError Answer
  | .interrupt => Except SystemError Unit

inductive Stop where
  | failed (f : Failure)
  | noSuchMoment

end Service

abbrev Service (α : Type) :=
  ExceptT Service.Stop (Program Service.Request Service.Request.Reply) α

namespace Service

def ask (request : Request) : Service request.Reply :=
  ExceptT.lift (Program.ask request .done)

def say (line : String) : Service Unit := ask (.say line)

def orFail {ε α : Type} (failure : ε → Failure) : Except ε α → Service α
  | .ok a => return a
  | .error e => throw (.failed (failure e))

end Service

end Localnet
