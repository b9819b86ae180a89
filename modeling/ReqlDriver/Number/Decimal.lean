import ReqlDriver.Number.Binary64

namespace ReqlDriver

structure Decimal where
  negative : Bool
  coefficient : Nat
  exponent : Int
deriving DecidableEq, Repr

namespace Decimal

def digitValue (c : Char) : Nat := c.toNat - '0'.toNat

def ofDigits (cs : List Char) : Nat :=
  cs.foldl (fun n c => 10 * n + digitValue c) 0

def digits (cs : List Char) : List Char × List Char :=
  (cs.takeWhile Char.isDigit, cs.dropWhile Char.isDigit)

/-- The value rounded to a format. No number within reach has an exponent beyond 400, so a larger
one is cut, which keeps the exact intermediate values small. -/
def round (p : Binary64.Precision) (d : Decimal) : Binary64 :=
  let scale := d.exponent + (Nat.log2 d.coefficient / 3 : Nat)
  if d.coefficient = 0 then Binary64.zero d.negative
  else if 400 < d.exponent then .infinite d.negative
  else if scale < -400 then Binary64.zero d.negative
  else if 0 ≤ d.exponent then
    Binary64.ofUnits p d.negative (d.coefficient * tenTo d.exponent.toNat * Binary64.one) 1
  else
    Binary64.ofUnits p d.negative (d.coefficient * Binary64.one) (tenTo (-d.exponent).toNat)

def sign : List Char → Bool × List Char
  | '-' :: r => (true, r)
  | '+' :: r => (false, r)
  | r => (false, r)

def exponent? : List Char → Option Int
  | [] => some 0
  | c :: r =>
    if c = 'e' ∨ c = 'E' then
      let (negative, ds) := sign r
      if ds ≠ [] ∧ ds.all Char.isDigit then
        some (if negative then -(ofDigits ds : Int) else ofDigits ds)
      else none
    else none

def unsigned? (negative : Bool) (cs : List Char) : Option Decimal :=
  let (whole, r) := digits cs
  let (fraction, r) := match r with
    | '.' :: r => digits r
    | r => ([], r)
  if whole = [] ∧ fraction = [] then none
  else (exponent? r).map fun e =>
    ⟨negative, ofDigits (whole ++ fraction), e - fraction.length⟩

def read? (p : Binary64.Precision) (text : String) : Option Binary64 :=
  let (negative, cs) := sign text.toList
  match String.ofList (cs.map Char.toLower) with
  | "nan" => some .nan
  | "inf" | "infinity" => some (.infinite negative)
  | _ => (unsigned? negative cs).map (round p)

end Decimal

namespace Integer

open Decimal

def ofDigits? (cs : List Char) : Option Nat :=
  if cs ≠ [] ∧ cs.all Char.isDigit then some (ofDigits cs) else none

def signed? (cs : List Char) : Option Int :=
  let (negative, ds) := sign cs
  (ofDigits? ds).map fun n => if negative then -(n : Int) else n

def unsigned? : List Char → Option Nat
  | '+' :: ds => ofDigits? ds
  | ds => ofDigits? ds

def int32? (cs : List Char) : Option Int := (signed? cs).bind Width.int32.keep?

def uint16? (text : String) : Option UInt16 :=
  (unsigned? text.toList).bind fun n => if n < UInt16.size then some (UInt16.ofNat n) else none

def uint64? (text : String) : Option UInt64 :=
  (unsigned? text.toList).bind fun n => if n < UInt64.size then some (UInt64.ofNat n) else none

end Integer

end ReqlDriver
