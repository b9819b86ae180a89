import ReqlDriver.Json.Reader
import ReqlDriver.Settings.Basic
import ReqlDriver.Toml.Reader

namespace ReqlDriver.Settings

inductive Field
  | host
  | port
  | authKey
  | db
  | timeout
deriving DecidableEq, Repr

def Field.all : List Field := [host, port, authKey, db, timeout]

def Field.key : Field → String
  | host => "host"
  | port => "port"
  | authKey => "auth_key"
  | db => "db"
  | timeout => "timeout_ms"

inductive Given
  | text (s : String)
  | number (n : Int)
  | nothing

def port? : Int → Option UInt16
  | .ofNat n => if n < UInt16.size then some (UInt16.ofNat n) else none
  | _ => none

def timeout? : Int → Option UInt64
  | .ofNat n => if n < UInt64.size then some (UInt64.ofNat n) else none
  | _ => none

def set? (s : Settings) : Field → Given → Option Settings
  | .host, .text v => some { s with host := v }
  | .port, .number n => (port? n).map fun v => { s with port := v }
  | .authKey, .text v => some { s with authKey := some v }
  | .authKey, .nothing => some { s with authKey := none }
  | .db, .text v => some { s with db := some v }
  | .db, .nothing => some { s with db := none }
  | .timeout, .number n => (timeout? n).map fun v => { s with timeout := some v }
  | .timeout, .nothing => some { s with timeout := none }
  | _, _ => none

def setAll? (s : Settings) (given : List (Field × Given)) : Option Settings :=
  given.foldlM (fun s (f, g) => s.set? f g) s

def ofToml? (s : Settings) (t : Toml.Table) : Option Settings :=
  Field.all.foldlM (fun s f => match Entries.get? t f.key with
    | none => some s
    | some (.string v) => s.set? f (.text v)
    | some (.integer n) => s.set? f (.number n)
    | some _ => none) s

def readToml (text : String) : Except Error Settings :=
  match (Toml.read? text).bind (ofToml? {}) with
  | some s => .ok s
  | none => .error (.config .malformed)

def given? : Json.Document → Option Given
  | .literal .null => some .nothing
  | .text t => (Json.string? t).map Given.text
  | .numeral n => n.int?.map Given.number
  | _ => none

def fields? (seen : List Field) :
    List (List Json.Element × Json.Document) → Option (List (Field × Given))
  | [] => some []
  | (k, v) :: r => do
    let key ← Json.string? k
    match Field.all.find? fun f => f.key == key with
    | none => fields? seen r
    | some f =>
      if seen.contains f then none
      else
        let g ← given? v
        let more ← fields? (f :: seen) r
        some ((f, g) :: more)

def ofDocument? : Json.Document → Option Settings
  | .object entries => (fields? [] entries).bind (setAll? {})
  | .array items =>
    if items.length ≤ Field.all.length then
      (items.mapM given?).bind fun gs => setAll? {} (Field.all.zip gs)
    else none
  | _ => none

def readJson (text : String) : Except Error Settings :=
  match (Json.Document.read? text.toList).bind ofDocument? with
  | some s => .ok s
  | none => .error .serialization

end ReqlDriver.Settings
