import ReqlDriver.Datum.Timestamp
import ReqlDriver.Json.Basic
import ReqlDriver.Datum.Wire
import ReqlDriver.Time.Rfc3339

namespace ReqlDriver

namespace Datum

def byteItems (bytes : List UInt8) : List Json := bytes.map fun b => .int b.toNat

def plainTime (t : Timestamp) : Json :=
  match t.toMoment? with
  | some m => .string (Rfc3339.write false m)
  | none => .null

mutual

def plain : Datum → Json
  | null => .null
  | boolean b => .bool b
  | number x => numberJson x
  | string s => .string s
  | array items => .array (plainItems items)
  | object fields => .object (plainFields fields)
  | time t => plainTime t
  | binary bytes => .array (byteItems bytes)
  | grouped groups => .array (plainGroups groups)

def plainItems : List Datum → List Json
  | [] => []
  | d :: r => plain d :: plainItems r

def plainFields : List (String × Datum) → List (String × Json)
  | [] => []
  | (k, d) :: r => (k, plain d) :: plainFields r

def plainGroups : List (Datum × Datum) → List Json
  | [] => []
  | (g, d) :: r => .array [plain g, plain d] :: plainGroups r

end

end Datum

namespace Native

def integer? (w : Width) : Json → Option Int
  | .int n => w.keep? n
  | _ => none

def int64? : Json → Option Int := integer? Width.int64

def uint64? : Json → Option Int := integer? Width.uint64

def uint8? (v : Json) : Option UInt8 := (integer? Width.uint8 v).map fun n => UInt8.ofNat n.toNat

def float? : Json → Option Binary64 := Json.asFloat?

def string? : Json → Option String := Json.asString?

def bool? : Json → Option Bool
  | .bool b => some b
  | _ => none

def unit? : Json → Option Unit
  | .null => some ()
  | _ => none

variable {α β : Type}

def optional? (read : Json → Option α) : Json → Option (Option α)
  | .null => some none
  | v => (read v).map some

def list? (read : Json → Option α) (v : Json) : Option (List α) :=
  v.asArray?.bind fun items => items.mapM read

def map? (read : Json → Option α) (v : Json) : Option (List (String × α)) :=
  v.asObject?.bind fun es => es.mapM fun e => (read e.2).map fun x => (e.1, x)

def pair? (first : Json → Option α) (second : Json → Option β) : Json → Option (α × β)
  | .array [a, b] => do
    let x ← first a
    let y ← second b
    some (x, y)
  | _ => none

def moment? (v : Json) : Option Moment := v.asString?.bind Rfc3339.read?

def datum? (v : Json) : Option Datum := some (Datum.ofJson v)

end Native

def Datum.toNative? {α : Type} (d : Datum) (read : Json → Option α) : Option α := read d.plain

end ReqlDriver
