import Mathlib
import ReqlDriver.Proofs.Text.Utf8
import ReqlDriver.Protocol.Handshake

namespace ReqlDriver

namespace LittleEndian

end LittleEndian

namespace Handshake

open LittleEndian

def Takes (bytes : List UInt8) (n : Nat) (shake : Handshake) : Prop :=
  n ≤ bytes.length ∧ readRequest bytes = (.ok shake, bytes.drop n)

end Handshake

end ReqlDriver
