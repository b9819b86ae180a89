/-!
UTF-8: the bytes of a text, and the reading of bytes that may be no text.

Reading cuts the bytes into pieces, each a scalar or a defect. A defect covers as many bytes as
could still have begun a scalar and no more, so that what follows it is read afresh.
-/

namespace ReqlDriver.Utf8

def encodeChars (cs : List Char) : List UInt8 := cs.flatMap String.utf8EncodeChar

def encode (s : String) : List UInt8 := encodeChars s.toList

inductive Piece
  | scalar (c : Char)
  | stray (length : Nat)
  | cut
deriving DecidableEq

inductive Lead
  | one
  | two
  | three (lo hi : UInt8)
  | four (lo hi : UInt8)
  | none

def lead (b : UInt8) : Lead :=
  if b < 0x80 then .one
  else if b < 0xC2 then .none
  else if b < 0xE0 then .two
  else if b = 0xE0 then .three 0xA0 0xBF
  else if b = 0xED then .three 0x80 0x9F
  else if b < 0xF0 then .three 0x80 0xBF
  else if b = 0xF0 then .four 0x90 0xBF
  else if b < 0xF4 then .four 0x80 0xBF
  else if b = 0xF4 then .four 0x80 0x8F
  else .none

def continues (b : UInt8) : Bool := 0x80 ≤ b && b ≤ 0xBF

def scalar (first : Nat) (rest : List UInt8) : Piece :=
  .scalar (Char.ofNat (rest.foldl (fun n b => n * 64 + (b.toNat - 0x80)) first))

def head (a : UInt8) (rest : List UInt8) : Piece × Nat :=
  match lead a, rest with
  | .one, _ => (scalar a.toNat [], 0)
  | .none, _ => (.stray 1, 0)
  | .two, [] => (.cut, 0)
  | .two, b :: _ => if continues b then (scalar (a.toNat - 0xC0) [b], 1) else (.stray 1, 0)
  | .three _ _, [] => (.cut, 0)
  | .three lo hi, b :: r =>
    if ¬ (lo ≤ b ∧ b ≤ hi) then (.stray 1, 0) else match r with
    | [] => (.cut, 1)
    | c :: _ => if continues c then (scalar (a.toNat - 0xE0) [b, c], 2) else (.stray 2, 1)
  | .four _ _, [] => (.cut, 0)
  | .four lo hi, b :: r =>
    if ¬ (lo ≤ b ∧ b ≤ hi) then (.stray 1, 0) else match r with
    | [] => (.cut, 1)
    | c :: r =>
      if ¬ continues c then (.stray 2, 1) else match r with
      | [] => (.cut, 2)
      | d :: _ => if continues d then (scalar (a.toNat - 0xF0) [b, c, d], 3) else (.stray 3, 2)

def piecesFrom : Nat → List UInt8 → List Piece
  | _, [] => []
  | skip + 1, _ :: rest => piecesFrom skip rest
  | 0, a :: rest => (head a rest).1 :: piecesFrom (head a rest).2 rest

def pieces (bytes : List UInt8) : List Piece := piecesFrom 0 bytes

/-- The first defect of bytes that are no text: where it starts and how long it is, with no length
for a scalar that is cut off. -/
structure Fault where
  start : Nat
  length : Option Nat
deriving DecidableEq, Repr

def Fault.message (f : Fault) : String :=
  match f.length with
  | some n => s!"invalid utf-8 sequence of {n} bytes from index {f.start}"
  | none => s!"incomplete utf-8 byte sequence from index {f.start}"

def gather : Nat → List Piece → Except Fault (List Char)
  | _, [] => .ok []
  | start, .scalar c :: r => (gather (start + c.utf8Size) r).map (c :: ·)
  | start, .stray n :: _ => .error ⟨start, some n⟩
  | start, .cut :: _ => .error ⟨start, none⟩

def decode (bytes : List UInt8) : Except Fault String :=
  (gather 0 (pieces bytes)).map String.ofList

def Piece.shown : Piece → Char
  | scalar c => c
  | _ => '\uFFFD'

def decodeLossy (bytes : List UInt8) : String := String.ofList ((pieces bytes).map Piece.shown)

end ReqlDriver.Utf8
