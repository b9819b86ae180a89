import ReqlDriver.CommandLine.Help
import ReqlDriver.CommandLine.Job
import ReqlDriver.Settings.Reader
import Std.Async.DNS
import Std.Async.TCP
import Std.Async.Timer

/-!
The command line tool itself: it reads variables and files, talks to a server over TCP, and prints.
What it sends and prints is decided by the session and the job.
-/

namespace ReqlDriver.CommandLine

open Std Async Net

abbrev Socket := TCP.Socket.Client

def variableNames : List String :=
  ["RETHINKDB_CONFIG", "RETHINKDB_HOST", "RETHINKDB_PORT", "RETHINKDB_AUTH_KEY", "RETHINKDB_DB",
    "RETHINKDB_LOG_DIR"]

def readVariables : IO (String → Option String) := do
  let values ← variableNames.filterMapM fun name => do
    return (← IO.getEnv name).map fun value => (name, value)
  return fun name => values.lookup name

def orFail {α : Type} : Except Error α → IO α
  | .ok a => return a
  | .error e => throw (IO.userError e.message)

def readSettingsFile (path : String) : IO Settings := do
  orFail (Settings.readToml (← IO.FS.readFile path))

def within {α : Type} (limit : Option UInt64) (work : Async α) : Async α :=
  match limit with
  | none => work
  | some ms => do
    let late : Async (Option α) := do
      sleep (Time.Millisecond.Offset.ofNat ms.toNat)
      return none
    match ← Async.race (some <$> work) late with
    | some a => return a
    | none => throw (IO.userError Error.timeout.message)

def endpoint (port : UInt16) : IPAddr → SocketAddress
  | .v4 a => .v4 ⟨a, port⟩
  | .v6 a => .v6 ⟨a, port⟩

def connectAny (port : UInt16) : List IPAddr → Async Socket
  | [] => throw (IO.userError (Error.io .notFound).message)
  | a :: r => do
    let socket ← TCP.Socket.Client.mk
    try
      socket.connect (endpoint port a)
      socket.noDelay
      return socket
    catch e =>
      if r.isEmpty then throw (IO.userError ("IO error: " ++ toString e)) else connectAny port r

def dial (s : Settings) : Async Socket := do
  let found ← try DNS.getAddrInfo s.host (toString s.port)
    catch e => throw (IO.userError ("IO error: " ++ toString e))
  connectAny s.port found.toList

def arrival (socket : Socket) : Async (Option (List UInt8)) := do
  try return (← socket.recv? 65536).map fun bytes => bytes.toList
  catch _ => return none

def transmit (socket : Socket) (bytes : List UInt8) : Async Unit :=
  socket.send (ByteArray.mk bytes.toArray)

partial def awaitAnswer (socket : Socket) (s : Settings) (reply : List UInt8) (ended : Bool) :
    Async Session := do
  match Session.open? { s with timeout := none } reply ended with
  | some (.opened session) => return session
  | some (.failed _ e) => throw (IO.userError e.message)
  | none => match ← arrival socket with
    | some bytes => awaitAnswer socket s (reply ++ bytes) false
    | none => awaitAnswer socket s reply true

def greet (socket : Socket) (s : Settings) : Async Session := do
  if (Session.open? { s with timeout := none } [] false).isNone then
    transmit socket (Handshake.header (Handshake.keyBytes s.authKey))
  awaitAnswer socket s [] false

partial def converse (socket : Socket) (j : Job) : Async Unit := do
  let (frames, j) := j.flush
  for line in j.output do IO.println line
  for f in frames do transmit socket f.bytes
  let j := { j with output := [] }
  match j.result with
  | some r => orFail r
  | none => match ← arrival socket with
    | some bytes => converse socket (j.receive bytes false)
    | none => converse socket (j.receive [] true)

def connectAndRun (c : Command) (s : Settings) : Async Unit := do
  let socket ← within s.timeout (dial s)
  let session ← within s.timeout (greet socket s)
  converse socket (Job.start session c)
  socket.shutdown

def runInvocation (i : Invocation) (lookup : String → Option String) : IO Unit := do
  if let some dir := i.logDir then IO.FS.createDirAll dir
  match i.command with
  | .version => IO.println versionText
  | c =>
    let file ← i.file.mapM readSettingsFile
    let s ← orFail (i.settings file lookup)
    (connectAndRun c s).block

end ReqlDriver.CommandLine

open ReqlDriver.CommandLine in
def main (args : List String) : IO UInt32 := do
  let lookup ← readVariables
  match start lookup args with
  | .refused =>
    for line in Level.root.help do IO.eprintln line
    return 2
  | .help l =>
    for line in l.help do IO.println line
    return 0
  | .version =>
    IO.println versionText
    return 0
  | .run i =>
    try
      runInvocation i lookup
      return 0
    catch e =>
      IO.eprintln ("Error: " ++ toString e)
      return 1
