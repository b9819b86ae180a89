import ReqlDriver.Json.Basic

namespace ReqlDriver

namespace Label

def capitalise : List Char → List Char
  | [] => []
  | c :: r => c.toUpper :: r.map Char.toLower

def ofName (name : String) : String :=
  String.ofList ((name.toList.splitOn '_').flatMap capitalise)

def ofJson? : Json → Option String
  | .string s => some s
  | .object [(s, .null)] => some s
  | _ => none

end Label

inductive QueryType
  | start
  | fetch
  | stop
  | noreplyWait
  | serverInfo
deriving DecidableEq, Repr

namespace QueryType

def code : QueryType → Nat
  | start => 1
  | fetch => 2
  | stop => 3
  | noreplyWait => 4
  | serverInfo => 5

def name : QueryType → String
  | start => "START"
  | fetch => "CONTINUE"
  | stop => "STOP"
  | noreplyWait => "NOREPLY_WAIT"
  | serverInfo => "SERVER_INFO"

def all : List QueryType := [start, fetch, stop, noreplyWait, serverInfo]

def ofCode? (n : Nat) : Option QueryType := all.find? fun t => t.code == n

def label (t : QueryType) : String := Label.ofName t.name

def ofLabel? (label : String) : Option QueryType := all.find? fun t => t.label == label

end QueryType

inductive ResponseType
  | successAtom
  | successSequence
  | successPartial
  | waitComplete
  | serverInfo
  | clientError
  | compileError
  | runtimeError
deriving DecidableEq, Repr

namespace ResponseType

def code : ResponseType → Nat
  | successAtom => 1
  | successSequence => 2
  | successPartial => 3
  | waitComplete => 4
  | serverInfo => 5
  | clientError => 16
  | compileError => 17
  | runtimeError => 18

def label : ResponseType → String
  | successAtom => "SuccessAtom"
  | successSequence => "SuccessSequence"
  | successPartial => "SuccessPartial"
  | waitComplete => "WaitComplete"
  | serverInfo => "ServerInfo"
  | clientError => "ClientError"
  | compileError => "CompileError"
  | runtimeError => "RuntimeError"

def isError : ResponseType → Bool
  | clientError => true
  | compileError => true
  | runtimeError => true
  | _ => false

def isSequence : ResponseType → Bool
  | successSequence => true
  | successPartial => true
  | _ => false

def all : List ResponseType :=
  [successAtom, successSequence, successPartial, waitComplete, serverInfo, clientError,
   compileError, runtimeError]

def ofCode? (n : Nat) : Option ResponseType := all.find? fun t => t.code == n

def ofLabel? (label : String) : Option ResponseType := all.find? fun t => t.label == label

end ResponseType

inductive ErrorType
  | internal
  | resourceLimit
  | queryLogic
  | nonExistence
  | opFailed
  | opIndeterminate
  | user
  | permissionError
deriving DecidableEq, Repr

namespace ErrorType

def code : ErrorType → Nat
  | internal => 1000000
  | resourceLimit => 2000000
  | queryLogic => 3000000
  | nonExistence => 3100000
  | opFailed => 4100000
  | opIndeterminate => 4200000
  | user => 5000000
  | permissionError => 6000000

def label : ErrorType → String
  | internal => "Internal"
  | resourceLimit => "ResourceLimit"
  | queryLogic => "QueryLogic"
  | nonExistence => "NonExistence"
  | opFailed => "OpFailed"
  | opIndeterminate => "OpIndeterminate"
  | user => "User"
  | permissionError => "PermissionError"

def all : List ErrorType :=
  [internal, resourceLimit, queryLogic, nonExistence, opFailed, opIndeterminate, user,
   permissionError]

def ofCode? (n : Nat) : Option ErrorType := all.find? fun t => t.code == n

def ofLabel? (label : String) : Option ErrorType := all.find? fun t => t.label == label

end ErrorType

end ReqlDriver
