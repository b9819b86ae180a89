namespace ReqlDriver

structure Date where
  year : Int
  month : Nat
  day : Nat
deriving DecidableEq, Repr

namespace Date

def isLeap (year : Int) : Bool :=
  year % 4 == 0 && (year % 100 != 0 || year % 400 == 0)

def daysInMonth (year : Int) (month : Nat) : Nat :=
  if month = 2 then (if isLeap year then 29 else 28)
  else if month = 4 ∨ month = 6 ∨ month = 9 ∨ month = 11 then 30
  else 31

def valid (d : Date) : Bool :=
  1 ≤ d.month && d.month ≤ 12 && 1 ≤ d.day && d.day ≤ daysInMonth d.year d.month

def toDays (d : Date) : Int :=
  let year := if d.month ≤ 2 then d.year - 1 else d.year
  let month : Int := if d.month ≤ 2 then d.month + 9 else (d.month : Int) - 3
  let ofYear := year % 400
  let ofDay := (153 * month + 2) / 5 + d.day - 1
  year / 400 * 146097 + ofYear * 365 + ofYear / 4 - ofYear / 100 + ofDay - 719468

def ofDays (days : Int) : Date :=
  let shifted := days + 719468
  let inEra := shifted % 146097
  let ofYear := (inEra - inEra / 1460 + inEra / 36524 - inEra / 146096) / 365
  let ofDay := inEra - (365 * ofYear + ofYear / 4 - ofYear / 100)
  let month := (5 * ofDay + 2) / 153
  let year := shifted / 146097 * 400 + ofYear
  { year := if month < 10 then year else year + 1
    month := (if month < 10 then month + 3 else month - 9).toNat
    day := (ofDay - (153 * month + 2) / 5 + 1).toNat }

end Date

/-- Seconds since 1970 in universal time, nanoseconds after them, and the offset of local time in
seconds. Within a leap second the nanoseconds go on beyond one second. -/
structure Moment where
  seconds : Int
  nanos : Nat
  offset : Int
deriving DecidableEq, Repr

namespace Moment

def daySeconds : Int := 86400

def firstSecond : Int := (Date.mk (-262143) 1 1).toDays * daySeconds

def endSecond : Int := (Date.mk 262143 1 1).toDays * daySeconds

def inRange (seconds : Int) : Bool := firstSecond ≤ seconds && seconds < endSecond

def offsetInRange (offset : Int) : Bool := -daySeconds < offset && offset < daySeconds

def isLeapSecond (m : Moment) : Bool := 1000000000 ≤ m.nanos

def ofMillis? (millis offset : Int) : Option Moment :=
  if inRange (millis / 1000) then
    some ⟨millis / 1000, (millis % 1000).toNat * 1000000, offset⟩
  else none

def millis (m : Moment) : Int := m.seconds * 1000 + m.nanos / 1000000

def localTime (m : Moment) : Int := m.seconds + m.offset

def localDate (m : Moment) : Date := Date.ofDays (m.localTime / daySeconds)

def localSecond (m : Moment) : Int := m.localTime % daySeconds

end Moment

end ReqlDriver
