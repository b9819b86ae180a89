import ReqlDriver.Protocol.Frame
import ReqlDriver.Protocol.Response

namespace ReqlDriver

abbrev Answer := Except Error Response

def Frame.answer (f : Frame) : Answer := (Response.ofJson f.payload).mapError .protocol

structure Waiters where
  pending : List (UInt64 × Nat) := []
  closed : Bool := false
deriving DecidableEq

namespace Waiters

def get? (w : Waiters) (token : UInt64) : Option Nat := w.pending.lookup token

def register (w : Waiters) (token : UInt64) (id : Nat) : Except Error Waiters :=
  if w.closed then .error .connectionClosed
  else match w.get? token with
    | some _ => .error (.protocol (.tokenInUse token.toNat))
    | none => .ok { w with pending := (token, id) :: w.pending }

def remove (w : Waiters) (token : UInt64) : Waiters :=
  { w with pending := w.pending.filter fun p => p.1 != token }

def dispatch (w : Waiters) (f : Frame) : List (Nat × Answer) × Waiters :=
  match w.get? f.token with
  | none => ([], w)
  | some id => ([(id, f.answer)], w.remove f.token)

def failAll (w : Waiters) : List (Nat × Answer) × Waiters :=
  (w.pending.map fun p => (p.2, .error .connectionClosed), { pending := [], closed := true })

def deliver (w : Waiters) : List Frame → List (Nat × Answer) × Waiters
  | [] => ([], w)
  | f :: r =>
    let (here, w) := w.dispatch f
    let (more, w) := w.deliver r
    (here ++ more, w)

end Waiters

end ReqlDriver
