import ReqlDriver.Datum.Display
import ReqlDriver.Datum.Wire
import ReqlDriver.Error

namespace ReqlDriver

structure Response where
  type : ResponseType
  result : Datum
  backtrace : Option Datum
  profile : Option Datum
  errorType : Option ErrorType

namespace Response

mutual

def errorMessage : Json → String
  | .string s => s
  | .array items => firstMessage items
  | .null => ""
  | v => v.text

def firstMessage : List Json → String
  | [] => ""
  | v :: _ => errorMessage v

end

def typeOf (code : Option Json) : Except ProtocolFault ResponseType :=
  match code.bind Json.asNat? with
  | none => .error .responseTypeMissing
  | some n => match ResponseType.ofCode? n with
    | none => .error (.unknownResponseType n)
    | some type => .ok type

def withOptions (type : ResponseType) (result : Datum) (options : List (String × Json)) :
    Response where
  type := type
  result := result
  backtrace := (Entries.get? options "b").map Datum.ofJson
  profile := (Entries.get? options "p").map Datum.ofJson
  errorType := ((Entries.get? options "e").bind Json.asNat?).bind ErrorType.ofCode?

def resultOf (type : ResponseType) (result : Json) : Except ProtocolFault Datum :=
  if type.isSequence then match result with
    | .array _ => .ok (Datum.ofJson result)
    | v => .error (.resultNotArray type v)
  else if type.isError then .ok (.string (errorMessage result))
  else .ok (Datum.ofJson result)

def resultOfRows (type : ResponseType) (rows : List Json) : Datum :=
  if type.isSequence then Datum.ofJson (.array rows)
  else if type.isError then .string (firstMessage rows)
  else (rows.head?.map Datum.ofJson).getD .null

def optionsOf : Option Json → List (String × Json)
  | some (.object entries) => entries
  | _ => []

def rowsOf : Option Json → List Json
  | some (.array rows) => rows
  | some v => [v]
  | none => []

def ofItems (items : List Json) : Except ProtocolFault Response := do
  let type ← typeOf items[0]?
  let result ← resultOf type (items[1]?.getD .null)
  .ok (withOptions type result (optionsOf items[2]?))

def ofEntries (entries : List (String × Json)) : Except ProtocolFault Response := do
  let type ← typeOf (Entries.get? entries "t")
  .ok (withOptions type (resultOfRows type (rowsOf (Entries.get? entries "r"))) entries)

def ofJson : Json → Except ProtocolFault Response
  | .array items => ofItems items
  | .object entries => ofEntries entries
  | v => .error (.malformedResponse v)

def rows (r : Response) : List Datum :=
  match r.result with
  | .array rows => rows
  | .null => []
  | d => [d]

def message (r : Response) : String :=
  match r.result with
  | .string s => s
  | d => d.display

def error? (r : Response) : Option Error :=
  match r.type with
  | .clientError => some (.client r.message r.backtrace)
  | .compileError => some (.compile r.message r.backtrace)
  | .runtimeError => some (.runtime r.message r.backtrace r.errorType)
  | _ => none

def unexpected (r : Response) : Error :=
  r.error?.getD (.protocol (.unexpectedResponse r.type))

end Response

end ReqlDriver
