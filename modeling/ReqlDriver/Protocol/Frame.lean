import ReqlDriver.Error
import ReqlDriver.Json.Printer
import ReqlDriver.Json.Reader
import ReqlDriver.Number.Width

namespace ReqlDriver

structure Frame where
  token : UInt64
  payload : Json

namespace Frame

def headerSize : Nat := 12

def envelope (token : UInt64) (body : List UInt8) : List UInt8 :=
  LittleEndian.toBytes 8 token.toNat ++ LittleEndian.toBytes 4 body.length ++ body

def bytes (f : Frame) : List UInt8 := envelope f.token f.payload.bytes

inductive Head
  | short
  | whole (f : Frame) (rest : List UInt8)
  | fault (e : Error)

def ofBody (token : UInt64) (size : Nat) (body : List UInt8) : Head :=
  if maxFrame < size then .fault (.protocol (.frameTooLong size))
  else if body.length < size then .short
  else match Json.ofBytes? (body.take size) with
    | some payload => .whole ⟨token, payload⟩ (body.drop size)
    | none => .fault .serialization

def head (bytes : List UInt8) : Head :=
  if bytes.length < headerSize then .short
  else
    ofBody (UInt64.ofNat (LittleEndian.ofBytes (bytes.take 8)))
      (LittleEndian.ofBytes ((bytes.drop 8).take 4)) (bytes.drop headerSize)

theorem length_lt_of_head_eq_whole {bytes rest : List UInt8} {f : Frame}
    (h : head bytes = .whole f rest) : rest.length < bytes.length := by
  unfold head ofBody at h
  split at h
  · cases h
  · repeat' split at h
    all_goals cases h
    simp only [List.length_drop, headerSize] at *
    omega

/-- The frames that bytes hold, then what is left: the bytes of an unfinished frame, and the error
if what is left can never become one. -/
structure Split where
  frames : List Frame
  rest : List UInt8
  fault : Option Error

def split (bytes : List UInt8) : Split :=
  match _h : head bytes with
  | .short => ⟨[], bytes, none⟩
  | .fault e => ⟨[], bytes, some e⟩
  | .whole f rest =>
    let s := split rest
    ⟨f :: s.frames, s.rest, s.fault⟩
termination_by bytes.length
decreasing_by exact length_lt_of_head_eq_whole _h

def readAll (bytes : List UInt8) : List Frame × Error :=
  let s := split bytes
  (s.frames, s.fault.getD (.io .unexpectedEof))

end Frame

end ReqlDriver
