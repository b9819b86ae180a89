import ReqlDriver.Number.Decimal
import ReqlDriver.Text.Utf8
import ReqlDriver.Time.Moment

/-!
Offsets of local time as text.

The written form is a sign, two digits of hours, a colon and two digits of minutes. Reading is
more generous: `Z`, hours alone, four digits without a colon, and hours and minutes that carry
signs of their own.
-/

namespace ReqlDriver.Offset

open Integer

def twoDigits (n : Nat) : List Char := [Nat.digitChar (n / 10 % 10), Nat.digitChar (n % 10)]

def clock (negative : Bool) (hours minutes : Nat) : String :=
  String.ofList ((if negative then '-' else '+') :: twoDigits hours ++ ':' :: twoDigits minutes)

def write (offset : Int) : String :=
  clock (decide (offset < 0)) (offset.natAbs / 3600) (offset.natAbs % 3600 / 60)

/-- Four bytes are cut in their middle, which is taken to lie between two characters. -/
def parts? (cs : List Char) : Option (Int × Int) :=
  let (hours, rest) := cs.span (· != ':')
  match rest with
  | _ :: minutes => do
    let h ← int32? hours
    let m ← int32? minutes
    some (h, m)
  | [] =>
    if (Utf8.encodeChars cs).length = 4 then do
      let h ← int32? (cs.take 2)
      let m ← int32? (cs.drop 2)
      some (h, m)
    else (int32? cs).map fun h => (h, 0)

def seconds (negative : Bool) (hours minutes : Int) : Int :=
  let east := hours * 3600 + minutes * 60
  Width.int32.wrap (if negative then -east else east)

def within? (offset : Int) : Option Int :=
  if Moment.offsetInRange offset then some offset else none

def read? (zone : String) : Option Int :=
  if zone = "Z" then some 0
  else match zone.toList with
    | '+' :: r => (parts? r).bind fun (h, m) => within? (seconds false h m)
    | '-' :: r => (parts? r).bind fun (h, m) => within? (seconds true h m)
    | _ => none

end ReqlDriver.Offset
