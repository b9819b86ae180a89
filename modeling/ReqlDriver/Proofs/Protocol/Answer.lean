import Mathlib
import ReqlDriver.Connection.Session
import ReqlDriver.Proofs.Protocol.Greeting

namespace ReqlDriver.Handshake

def answerText (reply : List UInt8) : List UInt8 := reply.takeWhile fun b => b != 0 && b != 10

section

variable {p : List UInt8} (hp : ∀ b ∈ p, endsAnswer b = false)
include hp

end

/-- The text and the byte after it, but no byte beyond the first one too many. -/
def taken (reply : List UInt8) : Nat := min (answerText reply).length maxAnswer + 1

section

variable (key : Option String) (reply : List UInt8)

end

end ReqlDriver.Handshake
