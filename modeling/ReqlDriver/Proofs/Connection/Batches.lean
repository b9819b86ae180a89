import ReqlDriver.Proofs.Protocol.Payload

namespace ReqlDriver

namespace Frame

structure Carries (f : Frame) (token : UInt64) (code : Nat) (rows : List Json) : Prop where
  token : f.token = token
  code : Response.code? f.payload = some code
  rows : Response.rowsIn? f.payload = some rows

variable {f : Frame} {token : UInt64} {rows : List Json}

theorem Carries.checked (type : ResponseType) (h : f.Carries token type.code rows)
    (hs : type.isSequence = true) :
    ∃ r, f.answer.checked = .ok r ∧ r.type = type ∧ r.rows = rows.map Datum.ofJson := by
  obtain ⟨r, hr, ht, hrows⟩ := Response.rows_of_rowsIn h.code hs h.rows
  have hn : Response.reported? f.payload = none := by
    rw [Response.reported?, h.code]
    cases type <;> first | rfl | cases hs
  exact ⟨r, checked_unreported hn hr, ht, hrows⟩

end Frame

namespace Cursor

variable {f : Frame} {token : UInt64} {batch : List Json}

def rows (buffer : List Datum) (batches : List (List Json)) : List Datum :=
  buffer ++ batches.flatten.map Datum.ofJson

/-- What one call after the other gets: the rows in order, an error once if there is one, and from
then on nothing. -/
def outcome (rows : List Datum) (failure : Option Error) (call : Nat) :
    Except Error (Option Datum) :=
  if call = rows.length then match failure with
    | some e => .error e
    | none => .ok none
  else .ok rows[call]?

end Cursor

end ReqlDriver
