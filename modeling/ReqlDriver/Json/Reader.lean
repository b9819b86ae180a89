import ReqlDriver.Json.Basic
import ReqlDriver.Json.Document
import ReqlDriver.Text.Utf8

/-!
The values of JSON documents.

A number without fraction and exponent that fits 64 bits, with or without sign, is an integer. Of
any other, the leading digits that fit 64 bits are taken as a whole number, which is then scaled
by powers of ten, each step rounded; a number that would become infinite is refused.
-/

namespace ReqlDriver.Json

open Decimal

def nesting : Nat := 127

namespace Numeral

def absorb (n : Nat) : List Char → Nat × List Char
  | [] => (n, [])
  | d :: r =>
    if 10 * n + digitValue d < UInt64.size then absorb (10 * n + digitValue d) r else (n, d :: r)

def powerOfTen (n : Nat) : Binary64 := Decimal.round Binary64.double ⟨false, 1, n⟩

/-- `x * 10 ^ e`. The table of powers ends at 308; numbers that need more room are zero or out of
range, up to a few steps of division. -/
def scale (x : Binary64) (e : Int) : Nat → Option Binary64
  | 0 => some x
  | fuel + 1 =>
    if 0 ≤ e then
      if e ≤ 308 then
        let y := x.mul (powerOfTen e.toNat)
        if y.isFinite then some y else none
      else if x.eq (Binary64.zero false) then some x else none
    else if -308 ≤ e then some (x.div (powerOfTen (-e).toNat))
    else if x.eq (Binary64.zero false) then some x
    else scale (x.div (powerOfTen 308)) (e + 308) fuel

def float? (n : Numeral) : Option Binary64 :=
  let (significand, rest) := absorb 0 n.whole
  let (significand, unused) := absorb significand n.fraction
  let e := (rest.length : Int) - (n.fraction.length - unused.length : Nat) + n.exponent.getD 0
  (scale (Binary64.ofNat significand) e 4).map fun x => if n.negative then x.neg else x

def int? (n : Numeral) : Option Int :=
  let value := ofDigits n.whole
  if n.fraction ≠ [] ∨ n.exponent ≠ none then none
  else if n.negative then
    if value = 0 then none else Width.int64.keep? (-value)
  else Width.uint64.keep? value

def value? (n : Numeral) : Option Json :=
  match n.int? with
  | some i => some (.int i)
  | none => n.float?.map .float

end Numeral

def characters? : List Element → Option (List Char)
  | [] => some []
  | .plain c :: r => (characters? r).map (c :: ·)
  | .code n :: r =>
    if 0xD800 ≤ n ∧ n < 0xDC00 then match r with
      | .code m :: r =>
        if 0xDC00 ≤ m ∧ m < 0xE000 then
          (characters? r).map (Char.ofNat (0x10000 + (n - 0xD800) * 0x400 + (m - 0xDC00)) :: ·)
        else none
      | _ => none
    else if 0xDC00 ≤ n ∧ n < 0xE000 then none
    else (characters? r).map (Char.ofNat n :: ·)

def string? (elements : List Element) : Option String := (characters? elements).map String.ofList

def Literal.value : Literal → Json
  | .null => Json.null
  | .true => Json.bool Bool.true
  | .false => Json.bool Bool.false

namespace Document

mutual

def value? (room : Nat) : Document → Option Json
  | literal l => some l.value
  | numeral n => n.value?
  | text t => (string? t).map Json.string
  | array items => match room with
    | 0 => none
    | room + 1 => (values? room items).map Json.array
  | object entries => match room with
    | 0 => none
    | room + 1 => (entryValues? room entries).map ofEntries

def values? (room : Nat) : List Document → Option (List Json)
  | [] => some []
  | d :: r => do
    let v ← value? room d
    let vs ← values? room r
    some (v :: vs)

def entryValues? (room : Nat) : List (List Element × Document) → Option (List (String × Json))
  | [] => some []
  | (t, d) :: r => do
    let key ← string? t
    let v ← value? room d
    let es ← entryValues? room r
    some ((key, v) :: es)

end

end Document

def ofChars? (cs : List Char) : Option Json := (Document.read? cs).bind (Document.value? nesting)

def ofText? (s : String) : Option Json := ofChars? s.toList

def ofBytes? (bytes : List UInt8) : Option Json := (Utf8.decode bytes).toOption.bind ofText?

end ReqlDriver.Json
