import ReqlDriver.Protocol.Frame
import ReqlDriver.Query.Wire

namespace ReqlDriver

namespace Frame

def start (token : UInt64) (t : Term) (options : List (String × Json)) : Frame :=
  ⟨token, .array [.int QueryType.start.code, t.toJson, .object options]⟩

def control (token : UInt64) (type : QueryType) : Frame := ⟨token, .array [.int type.code]⟩

def item? (f : Frame) (index : Nat) : Option Json := f.payload.asArray?.bind (·[index]?)

def queryType? (f : Frame) : Option QueryType :=
  ((f.item? 0).bind Json.asNat?).bind QueryType.ofCode?

def term? (f : Frame) : Option (Except ProtocolFault Term) := (f.item? 1).map Term.ofJson

end Frame

structure Options where
  db : Option String := none
  noreply : Bool := false
  durability : Option String := none
  readMode : Option String := none
  profile : Bool := false
  arrayLimit : Option UInt64 := none
  timeFormat : Option String := none
  binaryFormat : Option String := none
  groupFormat : Option String := none

namespace Options

def textEntry (key : String) (value : Option String) : List (String × Json) :=
  value.toList.map fun s => (key, .string s)

def flagEntry (key : String) (value : Bool) : List (String × Json) :=
  if value then [(key, .bool true)] else []

def entries (o : Options) (defaultDb : Option String) : List (String × Json) :=
  Entries.ofList
    ((o.db.or defaultDb).toList.map (fun db => ("db", (Term.db db).toJson)) ++
      flagEntry "noreply" o.noreply ++
      textEntry "durability" o.durability ++
      textEntry "read_mode" o.readMode ++
      flagEntry "profile" o.profile ++
      o.arrayLimit.toList.map (fun n => ("array_limit", .int n.toNat)) ++
      textEntry "time_format" o.timeFormat ++
      textEntry "binary_format" o.binaryFormat ++
      textEntry "group_format" o.groupFormat)

end Options

end ReqlDriver
