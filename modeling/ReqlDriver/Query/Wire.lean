import ReqlDriver.Datum.Wire
import ReqlDriver.Error
import ReqlDriver.Json.Reader
import ReqlDriver.Query.Term

/-!
Terms as JSON on the wire.

An operation is the array of its number, its arguments and its options, the last two only where
they are needed. A literal stands for itself, but arrays within it are marked as such, since a bare
array is an operation; a record is a bare object.
-/

namespace ReqlDriver.Term

mutual

def markArrays : Json → Json
  | .array items => .array [.int Opcode.makeArray.code, .array (markItems items)]
  | .object entries => .object (markEntries entries)
  | v => v

def markItems : List Json → List Json
  | [] => []
  | v :: r => markArrays v :: markItems r

def markEntries : List (String × Json) → List (String × Json)
  | [] => []
  | (k, v) :: r => (k, markArrays v) :: markEntries r

end

def literalJson : Option Datum → Json
  | none => .null
  | some d => markArrays d.toJson

def operationJson (op : Opcode) : List Json → List (String × Json) → Json
  | [], [] => .array [.int op.code]
  | args, [] => .array [.int op.code, .array args]
  | args, options => .array [.int op.code, .array args, .object options]

mutual

def toJson : Term → Json
  | node .datum _ _ literal => literalJson literal
  | node .makeObj [] options _ => .object (optionsJson options)
  | node op args options _ => operationJson op (argsJson args) (optionsJson options)

def argsJson : List Term → List Json
  | [] => []
  | t :: r => toJson t :: argsJson r

def optionsJson : List (String × Term) → List (String × Json)
  | [] => []
  | (k, t) :: r => (k, toJson t) :: optionsJson r

end

def opcode (v : Json) : Except ProtocolFault Opcode :=
  match v.asNat? with
  | none => .error (.opcodeNotNumber v)
  | some code => match Opcode.ofCode? code with
    | none => .error (.unknownOpcode code)
    | some op => .ok op

def literalOf : List Json → Except ProtocolFault Term
  | [] => .error .literalMissing
  | v :: _ => .ok (datum (Datum.ofJson v))

mutual

def ofJson : Json → Except ProtocolFault Term
  | .array [] => .error .emptyTerm
  | .array (head :: rest) => (opcode head).bind fun op =>
    if op = .datum then literalOf rest else ofArguments op rest
  | .object entries =>
    if Entries.contains entries Datum.tagKey then .ok (datum (Datum.ofJson (.object entries)))
    else (ofEntries entries).map fun options => node .makeObj [] options none
  | v => .ok (datum (Datum.ofJson v))

def ofArguments (op : Opcode) : List Json → Except ProtocolFault Term
  | [] => .ok (new op)
  | .array items :: rest => (ofItems items).bind fun args =>
    (ofOptions op rest).map fun options => node op args options none
  | _ :: _ => .error (.argumentsNotArray op)

def ofOptions (op : Opcode) : List Json → Except ProtocolFault (List (String × Term))
  | [] => .ok []
  | .object entries :: _ => ofEntries entries
  | _ :: _ => .error (.optionsNotObject op)

def ofItems : List Json → Except ProtocolFault (List Term)
  | [] => .ok []
  | v :: r => (ofJson v).bind fun t => (ofItems r).map fun ts => t :: ts

def ofEntries : List (String × Json) → Except ProtocolFault (List (String × Term))
  | [] => .ok []
  | (k, v) :: r => (ofJson v).bind fun t => (ofEntries r).map fun ts => (k, t) :: ts

end

def read (text : String) : Except Error Term :=
  match Json.ofText? text with
  | none => .error .serialization
  | some v => (ofJson v).mapError .protocol

end ReqlDriver.Term
