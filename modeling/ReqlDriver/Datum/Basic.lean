import ReqlDriver.Entries
import ReqlDriver.Number.Binary64

namespace ReqlDriver

structure Timestamp where
  seconds : Binary64
  zone : String
deriving DecidableEq

inductive Datum
  | null
  | boolean (b : Bool)
  | number (x : Binary64)
  | string (s : String)
  | array (items : List Datum)
  | object (fields : List (String × Datum))
  | time (t : Timestamp)
  | binary (bytes : List UInt8)
  | grouped (groups : List (Datum × Datum))

namespace Datum

instance : Inhabited Datum := ⟨null⟩

def ofFields (fields : List (String × Datum)) : Datum := object (Entries.ofList fields)

def ofInt (n : Int) : Datum := number (Binary64.ofInt n)

def isNull : Datum → Bool
  | null => true
  | _ => false

def asString? : Datum → Option String
  | string s => some s
  | _ => none

def asNumber? : Datum → Option Binary64
  | number x => some x
  | _ => none

def asBool? : Datum → Option Bool
  | boolean b => some b
  | _ => none

def asArray? : Datum → Option (List Datum)
  | array items => some items
  | _ => none

def asObject? : Datum → Option (List (String × Datum))
  | object fields => some fields
  | _ => none

def asTimestamp? : Datum → Option Timestamp
  | time t => some t
  | _ => none

def asBinary? : Datum → Option (List UInt8)
  | binary bytes => some bytes
  | _ => none

def asGroups? : Datum → Option (List (Datum × Datum))
  | grouped groups => some groups
  | _ => none

def typeName : Datum → String
  | null => "NULL"
  | boolean _ => "BOOL"
  | number _ => "NUMBER"
  | string _ => "STRING"
  | array _ => "ARRAY"
  | object _ => "OBJECT"
  | time _ => "PTYPE<TIME>"
  | binary _ => "PTYPE<BINARY>"
  | grouped _ => "GROUPED_DATA"

mutual

def eq : Datum → Datum → Bool
  | null, null => true
  | boolean a, boolean b => a == b
  | number x, number y => x.eq y
  | string s, string t => s == t
  | array xs, array ys => eqItems xs ys
  | object es, object fs => eqFields es fs
  | time t, time u => t.seconds.eq u.seconds && t.zone == u.zone
  | binary a, binary b => a == b
  | grouped gs, grouped hs => eqGroups gs hs
  | _, _ => false

def eqItems : List Datum → List Datum → Bool
  | [], [] => true
  | x :: xs, y :: ys => eq x y && eqItems xs ys
  | _, _ => false

def eqFields : List (String × Datum) → List (String × Datum) → Bool
  | [], [] => true
  | (k, x) :: es, (l, y) :: fs => k == l && eq x y && eqFields es fs
  | _, _ => false

def eqGroups : List (Datum × Datum) → List (Datum × Datum) → Bool
  | [], [] => true
  | (g, x) :: gs, (h, y) :: hs => eq g h && eq x y && eqGroups gs hs
  | _, _ => false

end

end Datum

end ReqlDriver
