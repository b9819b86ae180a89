import ReqlDriver.CommandLine.Invocation
import ReqlDriver.Connection.Session

namespace ReqlDriver.CommandLine

structure Job where
  session : Session
  output : List String := []
  outgoing : List Frame := []
  result : Option (Except Error Unit) := none

namespace Job

def queryName : String := "query"

def fetchName : String := "fetch"

def perform (j : Job) (a : Session.Action) : Job × List (Except Error Outcome) :=
  let (s, report) := j.session.perform a
  ({ j with session := s, outgoing := j.outgoing ++ report.sent }, report.done.map (·.2))

def print (j : Job) (lines : List String) : Job := { j with output := j.output ++ lines }

def finish (j : Job) (r : Except Error Unit) : Job := { j with result := some r }

def fetch : Nat → Job → Job
  | 0, j => j
  | n + 1, j => match j.perform (.next fetchName queryName) with
    | (j, .ok (.row (some d)) :: _) => fetch n (j.print [d.toJson.text])
    | (j, .ok _ :: _) => j.finish (.ok ())
    | (j, .error e :: _) => j.finish (.error e)
    | (j, []) => j

def bufferedRows (j : Job) : Nat := j.session.cursorStates.foldl (fun n k => n + k.2.1) 0

def fetchAll (j : Job) : Job := fetch (j.bufferedRows + 1) j

def react (j : Job) : Except Error Outcome → Job
  | .error e => j.finish (.error e)
  | .ok (.result (.atom d)) => (j.print [d.toJson.pretty]).finish (.ok ())
  | .ok (.result (.sequence rows)) => (j.print (rows.map fun d => d.toJson.text)).finish (.ok ())
  | .ok (.result (.cursor _)) => j.fetchAll
  | .ok (.result .empty) => j.finish (.ok ())
  | .ok (.row (some d)) => (j.print [d.toJson.text]).fetchAll
  | .ok (.row none) => j.finish (.ok ())
  | .ok (.info d) => (j.print [d.toJson.pretty]).finish (.ok ())
  | .ok (.rows rows) => (j.print (rows.map fun d => d.toJson.text)).finish (.ok ())
  | .ok .done => j.finish (.ok ())

def follow (j : Job) (a : Session.Action) : Job :=
  let (j, done) := j.perform a
  done.foldl react j

def start (session : Session) (c : Command) : Job :=
  let j : Job := { session }
  match c with
  | .query text options => match Term.read text with
    | .ok t => j.follow (.run queryName t options)
    | .error e => j.finish (.error e)
  | .build t => j.follow (.run queryName t {})
  | .serverInfo => j.follow (.serverInfo queryName)
  | .version => j.finish (.ok ())

def flush (j : Job) : List Frame × Job := (j.outgoing, { j with outgoing := [] })

def receive (j : Job) (bytes : List UInt8) (ended : Bool) : Job :=
  let j := j.follow (.bytes bytes)
  if ended && j.result.isNone then j.follow .hangup else j

/-- Runs a command against a server that answers the frames in turn with the given bodies, to some
of them not at all, and hangs up when it has none left. Gives the frames that were sent. -/
def converse : List (Option (List UInt8)) → Job → List Frame × Job
  | replies, j => match j.flush, replies with
    | ([], j), _ => ([], j)
    | (sent, j), [] => (sent, if j.result.isSome then j else j.receive [] true)
    | (f :: more, j), reply :: replies =>
      let j := { j with outgoing := more }
      let j := match reply with
        | some body => if j.result.isSome then j else j.receive (Frame.envelope f.token body) false
        | none => j
      let (sent, j) := converse replies j
      (f :: sent, j)

end Job

end ReqlDriver.CommandLine
