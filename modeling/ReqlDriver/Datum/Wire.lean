import ReqlDriver.Datum.Basic
import ReqlDriver.Json.Basic
import ReqlDriver.Text.Base64

/-!
Data as JSON on the wire.

The three kinds that JSON lacks travel as objects with the key `$reql_type$`. Reading recognises
such an object by its tag and by the form of its payload; any other object stays one.
-/

namespace ReqlDriver.Datum

def tagKey : String := "$reql_type$"

def numberJson (x : Binary64) : Json :=
  match x.toInt? with
  | some n => if n.natAbs < twoTo 53 then .int n else Json.ofFloat x
  | none => Json.ofFloat x

mutual

def toJson : Datum → Json
  | null => .null
  | boolean b => .bool b
  | number x => numberJson x
  | string s => .string s
  | array items => .array (itemsJson items)
  | object fields => .object (fieldsJson fields)
  | time t => .object
    [(tagKey, .string "TIME"), ("epoch_time", Json.ofFloat t.seconds), ("timezone", .string t.zone)]
  | binary bytes => .object [(tagKey, .string "BINARY"), ("data", .string (Base64.encode bytes))]
  | grouped groups =>
    .object [(tagKey, .string "GROUPED_DATA"), ("data", .array (groupsJson groups))]

def itemsJson : List Datum → List Json
  | [] => []
  | d :: r => toJson d :: itemsJson r

def fieldsJson : List (String × Datum) → List (String × Json)
  | [] => []
  | (k, d) :: r => (k, toJson d) :: fieldsJson r

def groupsJson : List (Datum × Datum) → List Json
  | [] => []
  | (g, d) :: r => .array [toJson g, toJson d] :: groupsJson r

end

def timeOf? (fields : List (String × Datum)) : Option Datum := do
  let seconds ← (← Entries.get? fields "epoch_time").asNumber?
  let zone ← (← Entries.get? fields "timezone").asString?
  some (time ⟨seconds, zone⟩)

def binaryOf? (fields : List (String × Datum)) : Option Datum := do
  let data ← (← Entries.get? fields "data").asString?
  (Base64.decode data).map binary

def pair? : Datum → Option (Datum × Datum)
  | array [g, d] => some (g, d)
  | _ => none

def groupedOf? (fields : List (String × Datum)) : Option Datum := do
  let items ← (← Entries.get? fields "data").asArray?
  (items.mapM pair?).map grouped

def recognise? (fields : List (String × Datum)) : Option Datum :=
  match (Entries.get? fields tagKey).bind asString? with
  | some "TIME" => timeOf? fields
  | some "BINARY" => binaryOf? fields
  | some "GROUPED_DATA" => groupedOf? fields
  | _ => none

def ofJsonFields (fields : List (String × Datum)) : Datum :=
  (recognise? fields).getD (object fields)

mutual

def ofJson : Json → Datum
  | .null => null
  | .bool b => boolean b
  | .int n => ofInt n
  | .float x => number x
  | .string s => string s
  | .array items => array (ofItems items)
  | .object entries => ofJsonFields (ofEntries entries)

def ofItems : List Json → List Datum
  | [] => []
  | v :: r => ofJson v :: ofItems r

def ofEntries : List (String × Json) → List (String × Datum)
  | [] => []
  | (k, v) :: r => (k, ofJson v) :: ofEntries r

end

end ReqlDriver.Datum
