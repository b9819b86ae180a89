import ReqlDriver.Connection.Waiters

namespace ReqlDriver

def Answer.checked (a : Answer) : Answer :=
  a.bind fun r => if r.type.isError then .error r.unexpected else .ok r

structure Cursor where
  token : UInt64
  buffer : List Datum
  exhausted : Bool

namespace Cursor

inductive Move
  | row (d : Datum) (rest : Cursor)
  | ended
  | fetch

def move (c : Cursor) : Move :=
  match c.buffer with
  | d :: r => .row d { c with buffer := r }
  | [] => if c.exhausted then .ended else .fetch

def receive (c : Cursor) (a : Answer) : Cursor × Option Error :=
  match a.checked with
  | .error e => ({ c with exhausted := c.exhausted || e.isQueryError }, some e)
  | .ok r => match r.type with
    | .successSequence => ({ c with buffer := c.buffer ++ r.rows, exhausted := true }, none)
    | .successPartial => ({ c with buffer := c.buffer ++ r.rows }, none)
    | .successAtom => ({ c with buffer := c.buffer ++ [r.result], exhausted := true }, none)
    | type => (c, some (.protocol (.unexpectedBatch type)))

def stopped (c : Cursor) : Cursor := { c with buffer := [], exhausted := true }

end Cursor

inductive Result
  | atom (d : Datum)
  | sequence (rows : List Datum)
  | cursor (c : Cursor)
  | empty

namespace Result

def atom? : Result → Option Datum
  | atom d => some d
  | _ => none

def rows? : Result → Option (List Datum)
  | atom (.array rows) => some rows
  | atom d => some [d]
  | sequence rows => some rows
  | cursor _ => none
  | empty => some []

end Result

namespace Answer

def result (a : Answer) (token : UInt64) : Except Error Result := do
  let r ← a.checked
  match r.type with
  | .successAtom => .ok (.atom r.result)
  | .serverInfo => .ok (.atom r.result)
  | .successSequence => .ok (.sequence r.rows)
  | .successPartial => .ok (.cursor ⟨token, r.rows, false⟩)
  | .waitComplete => .ok .empty
  | _ => .error r.unexpected

def waited (a : Answer) : Except Error Unit := do
  let r ← a.checked
  if r.type = .waitComplete then .ok () else .error r.unexpected

def info (a : Answer) : Except Error Datum := do
  let r ← a.checked
  if r.type = .serverInfo ∨ r.type = .successAtom then .ok r.result else .error r.unexpected

end Answer

end ReqlDriver
