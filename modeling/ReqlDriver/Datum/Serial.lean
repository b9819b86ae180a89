import ReqlDriver.Datum.Wire
import ReqlDriver.Json.Printer

namespace ReqlDriver

inductive Serial
  | unit
  | bool (b : Bool)
  | integer (n : Int)
  | float (x : Binary64)
  | text (s : String)
  | json (v : Json)
  | sequence (items : List Serial)
  | mapping (entries : List (Serial × Serial))
  | variant (name : String) (payload : Serial)

inductive Unsupported
  | keyNotText
  | keyNotFinite
  | numberOutOfRange
deriving DecidableEq

def Unsupported.message : Unsupported → String
  | keyNotText => "key must be a string"
  | keyNotFinite => "float key must be finite (got NaN or +/-inf)"
  | numberOutOfRange => "number out of range"

namespace Serial

def key : Serial → Except Unsupported String
  | text s => .ok s
  | bool b => .ok (if b then "true" else "false")
  | integer n => .ok (toString n)
  | float x => if x.isFinite then .ok (Json.numberText x) else .error .keyNotFinite
  | _ => .error .keyNotText

def number (n : Int) : Except Unsupported Json :=
  if Width.int64.least ≤ n ∧ n ≤ Width.uint64.greatest then .ok (.int n)
  else .error .numberOutOfRange

mutual

def toJson : Serial → Except Unsupported Json
  | unit => .ok .null
  | bool b => .ok (.bool b)
  | integer n => number n
  | float x => .ok (Json.ofFloat x)
  | text s => .ok (.string s)
  | json v => .ok v
  | sequence items => (itemsJson items).map Json.array
  | mapping entries => (entriesJson entries).map Json.ofEntries
  | variant name payload => (toJson payload).map fun v => .object [(name, v)]

def itemsJson : List Serial → Except Unsupported (List Json)
  | [] => .ok []
  | x :: r => do
    let v ← toJson x
    let vs ← itemsJson r
    .ok (v :: vs)

def entriesJson : List (Serial × Serial) → Except Unsupported (List (String × Json))
  | [] => .ok []
  | (k, x) :: r => do
    let k ← key k
    let v ← toJson x
    let es ← entriesJson r
    .ok ((k, v) :: es)

end

end Serial

def Datum.ofSerial (x : Serial) : Except Unsupported Datum := x.toJson.map Datum.ofJson

end ReqlDriver
