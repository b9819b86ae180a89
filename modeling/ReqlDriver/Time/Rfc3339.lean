import ReqlDriver.Time.Offset

namespace ReqlDriver.Rfc3339

open Decimal Offset

def isBlank (c : Char) : Bool :=
  let n := c.toNat
  (9 ≤ n && n ≤ 13) || n == 0x20 || n == 0x85 || n == 0xA0 || n == 0x1680 ||
    (0x2000 ≤ n && n ≤ 0x200A) || n == 0x2028 || n == 0x2029 || n == 0x202F || n == 0x205F ||
    n == 0x3000

def skipBlanks (cs : List Char) : List Char := cs.dropWhile isBlank

def padded (width n : Nat) : List Char :=
  let ds := Nat.toDigits 10 n
  List.replicate (width - ds.length) '0' ++ ds

def yearText (year : Int) : List Char :=
  if 0 ≤ year ∧ year ≤ 9999 then padded 4 year.toNat
  else (if year < 0 then '-' else '+') :: padded 4 year.natAbs

def fractionText (nanos : Nat) : List Char :=
  if nanos = 0 then []
  else if nanos % 1000000 = 0 then '.' :: padded 3 (nanos / 1000000)
  else if nanos % 1000 = 0 then '.' :: padded 6 (nanos / 1000)
  else '.' :: padded 9 nanos

def offsetText (offset : Int) : List Char :=
  let minutes := (offset.natAbs + 30) / 60
  (clock (decide (offset < 0)) (minutes / 60) (minutes % 60)).toList

def write (zulu : Bool) (m : Moment) : String :=
  let date := m.localDate
  let second := m.localSecond.toNat
  let (extra, nanos) := if m.isLeapSecond then (1, m.nanos - 1000000000) else (0, m.nanos)
  String.ofList
    (yearText date.year ++ '-' :: twoDigits date.month ++ '-' :: twoDigits date.day ++
      'T' :: twoDigits (second / 3600) ++ ':' :: twoDigits (second / 60 % 60) ++
      ':' :: twoDigits (second % 60 + extra) ++ fractionText nanos ++
      (if zulu && m.offset == 0 then ['Z'] else offsetText m.offset))

def number? (width : Nat) (cs : List Char) : Option (Nat × List Char) :=
  let cs := skipBlanks cs
  let ds := (cs.takeWhile Char.isDigit).take width
  if ds = [] then none else some (ofDigits ds, cs.drop ds.length)

def numberIn? (lo hi : Nat) (cs : List Char) : Option (Nat × List Char) :=
  (number? 2 cs).bind fun (n, r) => if lo ≤ n ∧ n ≤ hi then some (n, r) else none

def year? (cs : List Char) : Option (Int × List Char) :=
  match skipBlanks cs with
  | '-' :: r =>
    if (r.head?.any Char.isDigit) then (number? r.length r).map fun (n, r) => (-(n : Int), r)
    else none
  | '+' :: r =>
    if (r.head?.any Char.isDigit) then (number? r.length r).map fun (n, r) => ((n : Int), r)
    else none
  | r => (number? 4 r).map fun (n, r) => ((n : Int), r)

def separator? (c : Char) (cs : List Char) : Option (List Char) :=
  match skipBlanks cs with
  | d :: r => if d = c then some r else none
  | [] => none

def date? (cs : List Char) : Option (Date × List Char) := do
  let (year, r) ← year? cs
  let (month, r) ← numberIn? 1 12 (← separator? '-' r)
  let (day, r) ← numberIn? 1 31 (← separator? '-' r)
  some (⟨year, month, day⟩, r)

def nanos? : List Char → Option (Nat × List Char)
  | '.' :: r =>
    let (ds, r) := digits r
    if ds = [] then none
    else some (ofDigits (ds.take 9) * tenTo (9 - min 9 ds.length), r)
  | r => some (0, r)

def clock? (cs : List Char) : Option ((Nat × Nat) × List Char) := do
  let (hour, r) ← numberIn? 0 23 cs
  let (minute, r) ← numberIn? 0 59 (← separator? ':' r)
  let (second, r) ← numberIn? 0 60 (← separator? ':' r)
  let (nanos, r) ← nanos? r
  let time := hour * 3600 + minute * 60
  if second = 60 then some ((time + 59, 1000000000 + nanos), r)
  else some ((time + second, nanos), r)

def pair? : List Char → Option (Nat × List Char)
  | a :: b :: r => if a.isDigit && b.isDigit then some (ofDigits [a, b], r) else none
  | _ => none

def offsetMinutes? (cs : List Char) : Option (Nat × List Char) :=
  (pair? cs).bind fun (n, r) => if n < 60 then some (n, r) else none

def offset? (cs : List Char) : Option (Int × List Char) := do
  let (negative, r) ← match cs with
    | '+' :: r => some (false, r)
    | '-' :: r => some (true, r)
    | '\u2212' :: r => some (true, r)
    | _ => none
  let (hours, r) ← pair? r
  let (minutes, r) ← offsetMinutes? (r.dropWhile fun c => c == ':' || isBlank c)
  let seconds : Int := hours * 3600 + minutes * 60
  some (if negative then -seconds else seconds, r)

def zone? (cs : List Char) : Option (Int × List Char) :=
  if (cs.take 3).map Char.toUpper = ['U', 'T', 'C'] then some (0, cs.drop 3)
  else match cs with
    | 'Z' :: r => some (0, r)
    | 'z' :: r => some (0, r)
    | _ => offset? cs

def dateInRange (d : Date) : Bool := d.valid && -262143 ≤ d.year && d.year ≤ 262142

def read? (text : String) : Option Moment := do
  let (date, r) ← date? text.toList
  let r ← match r with
    | 'T' :: r => some r
    | 't' :: r => some r
    | ' ' :: r => some r
    | _ => none
  let ((second, nanos), r) ← clock? r
  let (offset, r) ← zone? (skipBlanks r)
  if skipBlanks r ≠ [] then none
  let offset ← within? offset
  let seconds := date.toDays * Moment.daySeconds + second - offset
  if dateInRange date && Moment.inRange seconds then some ⟨seconds, nanos, offset⟩ else none

end ReqlDriver.Rfc3339
