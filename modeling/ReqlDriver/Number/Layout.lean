import ReqlDriver.Number.Shortest

namespace ReqlDriver

open Shortest

/-- The decisions of a number format: how ties between digits go, for which decimal exponents a
number is written without an exponent part, and whether a whole number keeps a fraction `.0`. -/
structure Layout where
  tie : Tie
  positional : Int → Bool
  wholeFraction : Bool

namespace Layout

def zeros (n : Nat) : List Char := List.replicate n '0'

def place (l : Layout) (ds : List Char) (point : Int) : List Char :=
  if point ≤ 0 then '0' :: '.' :: zeros (-point).toNat ++ ds
  else if ds.length ≤ point.toNat then
    ds ++ zeros (point.toNat - ds.length) ++ (if l.wholeFraction then ['.', '0'] else [])
  else ds.take point.toNat ++ '.' :: ds.drop point.toNat

def scientific (ds : List Char) (exponent : Int) : List Char :=
  let mantissa := match ds with
    | d :: [] => [d]
    | d :: rest => d :: '.' :: rest
    | [] => []
  mantissa ++ 'e' :: (if exponent < 0 then '-' else '+') :: Nat.toDigits 10 exponent.natAbs

def magnitude (l : Layout) (units : Nat) : List Char :=
  if units = 0 then l.place ['0'] 1
  else
    let d := digits l.tie units
    let ds := Nat.toDigits 10 d.coefficient
    let point := d.exponent + ds.length
    if l.positional (point - 1) then l.place ds point else scientific ds (point - 1)

def finite (l : Layout) (negative : Bool) (units : Nat) : String :=
  String.ofList (if negative then '-' :: l.magnitude units else l.magnitude units)

def display : Layout := ⟨.up, fun _ => true, false⟩

def json : Layout := ⟨.toEven, fun e => decide (-5 ≤ e ∧ e ≤ 15), true⟩

end Layout

def Binary64.text : Binary64 → String
  | .nan => "NaN"
  | .infinite negative => if negative then "-inf" else "inf"
  | .finite negative units _ => Layout.display.finite negative units

end ReqlDriver
