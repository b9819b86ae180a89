import ReqlDriver.Datum.Basic
import ReqlDriver.Datum.Serial
import ReqlDriver.Json.Printer
import ReqlDriver.Protocol.Codes
import ReqlDriver.Query.Opcode

namespace ReqlDriver

inductive HandshakeFault
  | rejected (answer : String)
  | answerTooLong
  | keyTooLong (bytes : Nat)
  | keyNotText (fault : Utf8.Fault)
  | unknownVersion (magic : Nat)
  | unknownEncoding (magic : Nat)

inductive ProtocolFault
  | emptyTerm
  | opcodeNotNumber (found : Json)
  | unknownOpcode (code : Nat)
  | literalMissing
  | argumentsNotArray (op : Opcode)
  | optionsNotObject (op : Opcode)
  | malformedResponse (found : Json)
  | responseTypeMissing
  | unknownResponseType (code : Nat)
  | resultNotArray (type : ResponseType) (found : Json)
  | frameTooLong (bytes : Nat)
  | tokenInUse (token : Nat)
  | unexpectedResponse (type : ResponseType)
  | unexpectedBatch (type : ResponseType)

inductive IoFault
  | unexpectedEof
  | brokenPipe
  | connectionRefused
  | notFound
  | other
deriving DecidableEq

inductive ConfigFault
  | malformed
  | portVariable (value : String)

inductive Error
  | handshake (fault : HandshakeFault)
  | unsupportedType (fault : Unsupported)
  | client (message : String) (trace : Option Datum)
  | compile (message : String) (trace : Option Datum)
  | runtime (message : String) (trace : Option Datum) (type : Option ErrorType)
  | connectionClosed
  | protocol (fault : ProtocolFault)
  | io (fault : IoFault)
  | serialization
  | config (fault : ConfigFault)
  | timeout

def hexadecimal (n : Nat) : String := "0x" ++ String.ofList (Nat.toDigits 16 n)

def maxFrame : Nat := 256 * 1024 * 1024

namespace HandshakeFault

def message : HandshakeFault → String
  | rejected answer => answer
  | answerTooLong => "handshake response too long"
  | keyTooLong bytes => "auth key too long: " ++ toString bytes ++ " bytes"
  | keyNotText fault => "auth key is not UTF-8: " ++ fault.message
  | unknownVersion magic => "unsupported protocol version: " ++ hexadecimal magic
  | unknownEncoding magic => "unsupported wire protocol: " ++ hexadecimal magic

end HandshakeFault

namespace ProtocolFault

def message : ProtocolFault → String
  | emptyTerm => "Empty term array"
  | opcodeNotNumber found => "Invalid term type: expected number, got " ++ found.text
  | unknownOpcode code => "Unknown term type: " ++ toString code
  | literalMissing => "DATUM term requires value argument"
  | argumentsNotArray op => op.name ++ " arguments must be an array"
  | optionsNotObject op => op.name ++ " optargs must be an object"
  | malformedResponse found => "malformed response payload: " ++ found.text
  | responseTypeMissing => "response is missing its type"
  | unknownResponseType code => "unknown response type: " ++ toString code
  | resultNotArray type found => type.label ++ " result must be an array, got " ++ found.text
  | frameTooLong bytes =>
    "Message too large: " ++ toString bytes ++ " bytes (max: " ++ toString maxFrame ++ ")"
  | tokenInUse token => "token " ++ toString token ++ " already outstanding"
  | unexpectedResponse type => "unexpected response type: " ++ type.label
  | unexpectedBatch type => "unexpected response type for CONTINUE: " ++ type.label

end ProtocolFault

namespace IoFault

def name : IoFault → String
  | unexpectedEof => "UnexpectedEof"
  | brokenPipe => "BrokenPipe"
  | connectionRefused => "ConnectionRefused"
  | notFound => "NotFound"
  | other => "Other"

end IoFault

namespace ConfigFault

def message : ConfigFault → String
  | malformed => "malformed settings"
  | portVariable value => "invalid RETHINKDB_PORT: " ++ value

end ConfigFault

namespace Error

def kind : Error → String
  | handshake _ => "Handshake"
  | unsupportedType _ => "UnsupportedType"
  | client .. => "Client"
  | compile .. => "Compile"
  | runtime .. => "Runtime"
  | connectionClosed => "ConnectionClosed"
  | protocol _ => "Protocol"
  | io _ => "Io"
  | serialization => "Serialization"
  | config _ => "Config"
  | timeout => "Timeout"

def message : Error → String
  | handshake fault => "Handshake failed: " ++ fault.message
  | unsupportedType fault => "Unsupported type: " ++ fault.message
  | client text _ => "Client error: " ++ text
  | compile text _ => "Compile error: " ++ text
  | runtime text _ _ => "Runtime error: " ++ text
  | connectionClosed => "Connection closed"
  | protocol fault => "Protocol error: " ++ fault.message
  | io fault => "IO error: " ++ fault.name
  | serialization => "Serialization error: malformed JSON"
  | config fault => "Configuration error: " ++ fault.message
  | timeout => "Timeout"

def isQueryError : Error → Bool
  | client .. => true
  | compile .. => true
  | runtime .. => true
  | _ => false

def trace? : Error → Option Datum
  | client _ trace => trace
  | compile _ trace => trace
  | runtime _ trace _ => trace
  | _ => none

end Error

end ReqlDriver
