import ReqlDriver.Error
import ReqlDriver.Json.Printer
import ReqlDriver.Number.Decimal

namespace ReqlDriver

/-- The timeout is in milliseconds, and covers connecting and the handshake. -/
structure Settings where
  host : String := "localhost"
  port : UInt16 := 28015
  authKey : Option String := none
  db : Option String := none
  timeout : Option UInt64 := none
deriving DecidableEq, Repr

namespace Settings

def address (s : Settings) : String := s.host ++ ":" ++ toString s.port

def withTimeout (s : Settings) (micros : Nat) : Settings :=
  { s with timeout := some (UInt64.ofNat (micros / 1000)) }

def timeoutMicros (s : Settings) : Option Nat := s.timeout.map fun t => t.toNat * 1000

structure Layer where
  host : Option String := none
  port : Option UInt16 := none
  authKey : Option String := none
  db : Option String := none
  timeout : Option UInt64 := none
deriving DecidableEq, Repr

def overlay (s : Settings) (l : Layer) : Settings where
  host := l.host.getD s.host
  port := l.port.getD s.port
  authKey := l.authKey.or s.authKey
  db := l.db.or s.db
  timeout := l.timeout.or s.timeout

def environment (lookup : String → Option String) : Except Error Layer :=
  let layer : Layer :=
    { host := lookup "RETHINKDB_HOST"
      authKey := lookup "RETHINKDB_AUTH_KEY"
      db := lookup "RETHINKDB_DB" }
  match lookup "RETHINKDB_PORT" with
  | none => .ok layer
  | some text => match Integer.uint16? text with
    | some port => .ok { layer with port := some port }
    | none => .error (.config (.portVariable text))

def withEnvironment (s : Settings) (lookup : String → Option String) : Except Error Settings :=
  (environment lookup).map s.overlay

def optionText (f : α → String) : Option α → String
  | some a => f a
  | none => "null"

def text (s : Settings) : String :=
  "\x7b\"host\":" ++ Json.quote s.host ++
    ",\"port\":" ++ toString s.port ++
    ",\"auth_key\":" ++ optionText Json.quote s.authKey ++
    ",\"db\":" ++ optionText Json.quote s.db ++
    ",\"timeout_ms\":" ++ optionText toString s.timeout ++ "\x7d"

end Settings

end ReqlDriver
