import ReqlDriver.Time.Rfc3339
import ReqlDriver.Toml.Basic
import ReqlDriver.Toml.Text

namespace ReqlDriver.Toml

open Decimal

def moreDigits (ok : Char → Bool) : List Char → List Char × List Char
  | '_' :: c :: r =>
    if ok c then
      let (ds, r) := moreDigits ok r
      (c :: ds, r)
    else ([], '_' :: c :: r)
  | c :: r =>
    if ok c then
      let (ds, r) := moreDigits ok r
      (c :: ds, r)
    else ([], c :: r)
  | [] => ([], [])

def digits? (ok : Char → Bool) : List Char → Option (List Char × List Char)
  | c :: r =>
    if ok c then
      let (ds, r) := moreDigits ok r
      some (c :: ds, r)
    else none
  | [] => none

def wholeDigits? : List Char → Option (List Char × List Char)
  | '0' :: r => some (['0'], r)
  | cs => digits? Char.isDigit cs

def based? (base : Nat) (cs : List Char) : Option (Int × List Char) := do
  let digit c := (Json.hexValue? c).any fun n => decide (n < base)
  let (ds, r) ← digits? digit cs
  let n ← Width.int64.keep? (ds.foldl (fun n c => base * n + (Json.hexValue? c).getD 0) 0 : Nat)
  some (n, r)

def integer? : List Char → Option (Int × List Char)
  | '0' :: 'x' :: r => based? 16 r
  | '0' :: 'o' :: r => based? 8 r
  | '0' :: 'b' :: r => based? 2 r
  | cs => do
    let (negative, r) := sign cs
    let (ds, r) ← wholeDigits? r
    let n ← Width.int64.keep? (if negative then -(ofDigits ds : Int) else ofDigits ds)
    some (n, r)

def fraction? : List Char → Option (List Char × List Char)
  | '.' :: r => digits? Char.isDigit r
  | _ => none

def power? : List Char → Option (Int × List Char)
  | c :: r =>
    if c = 'e' ∨ c = 'E' then do
      let (negative, r) := sign r
      let (ds, r) ← digits? Char.isDigit r
      some (if negative then -(ofDigits ds : Int) else ofDigits ds, r)
    else none
  | [] => none

def floatParts? (cs : List Char) : Option ((List Char × Int) × List Char) :=
  match fraction? cs with
  | some (ds, r) => match power? r with
    | some (e, r) => some ((ds, e), r)
    | none => some ((ds, 0), r)
  | none => (power? cs).map fun (e, r) => (([], e), r)

def namedFloat? (negative : Bool) : List Char → Option (Binary64 × List Char)
  | 'i' :: 'n' :: 'f' :: r => some (.infinite negative, r)
  | 'n' :: 'a' :: 'n' :: r => some (.nan, r)
  | _ => none

def float? (cs : List Char) : Option (Binary64 × List Char) :=
  let (negative, r) := sign cs
  match namedFloat? negative r with
  | some found => some found
  | none => do
    let (whole, r) ← wholeDigits? r
    let ((fraction, e), r) ← floatParts? r
    let x := Decimal.round Binary64.double
      ⟨negative, ofDigits (whole ++ fraction), e - fraction.length⟩
    if x = .infinite false then none else some (x, r)

def inRange? (lo hi : Nat) (cs : List Char) : Option (Nat × List Char) :=
  (Rfc3339.pair? cs).bind fun (n, r) => if lo ≤ n ∧ n ≤ hi then some (n, r) else none

def after? (c : Char) : List Char → Option (List Char)
  | d :: r => if d = c then some r else none
  | [] => none

def afterDate? (cs : List Char) : Option (List Char) := do
  let (century, r) ← Rfc3339.pair? cs
  let (year, r) ← Rfc3339.pair? r
  let (month, r) ← Rfc3339.pair? (← after? '-' r)
  let (day, r) ← Rfc3339.pair? (← after? '-' r)
  if Date.valid ⟨100 * century + year, month, day⟩ then some r else none

def afterPoint? : List Char → Option (List Char)
  | '.' :: r => some (if r.head?.any Char.isDigit then r.dropWhile Char.isDigit else '.' :: r)
  | r => some r

def afterClock? (cs : List Char) : Option (List Char) := do
  let (_, r) ← inRange? 0 23 cs
  let (_, r) ← inRange? 0 59 (← after? ':' r)
  let (_, r) ← inRange? 0 60 (← after? ':' r)
  afterPoint? r

def afterOffset? : List Char → Option (List Char)
  | c :: r =>
    if c = 'Z' ∨ c = 'z' then some r
    else if c = '+' ∨ c = '-' then do
      let (_, r) ← inRange? 0 23 r
      let (_, r) ← inRange? 0 59 (← after? ':' r)
      some r
    else none
  | [] => none

def afterDateClock? : List Char → Option (List Char)
  | c :: r =>
    if c = 'T' ∨ c = 't' ∨ c = ' ' then
      (afterClock? r).map fun r => (afterOffset? r).getD r
    else none
  | [] => none

def afterTime? (cs : List Char) : Option (List Char) :=
  match afterDate? cs with
  | some r => some ((afterDateClock? r).getD r)
  | none => afterClock? cs

def boolean? : List Char → Option (Bool × List Char)
  | 't' :: 'r' :: 'u' :: 'e' :: r => some (true, r)
  | 'f' :: 'a' :: 'l' :: 's' :: 'e' :: r => some (false, r)
  | _ => none

def scalarValue? (cs : List Char) : Option (Toml × List Char) :=
  match string? cs, boolean? cs, afterTime? cs, float? cs, integer? cs with
  | some (s, r), _, _, _, _ => some (.string s, r)
  | _, some (b, r), _, _, _ => some (.boolean b, r)
  | _, _, some r, _, _ => some (.time, r)
  | _, _, _, some (x, r), _ => some (.float x, r)
  | _, _, _, _, some (n, r) => some (.integer n, r)
  | _, _, _, _, _ => none

end ReqlDriver.Toml
