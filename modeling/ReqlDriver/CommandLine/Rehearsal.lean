import ReqlDriver.CommandLine.Job
import ReqlDriver.Settings.Reader

namespace ReqlDriver.CommandLine

/-- `directory` tells whether there can be a directory at a path. `reply` is what the server sends
on a handshake, and `replies` are the bodies of its responses, none where it does not respond. -/
structure Surroundings where
  environment : String → Option String
  files : String → Option String
  directory : String → Bool
  listens : Settings → Bool
  reply : List UInt8
  replies : List (Option (List UInt8))

inductive Failure
  | unreadable
  | directory
  | error (e : Error)

structure Ending where
  result : Except Failure Unit
  output : List String := []
  greeting : Option Handshake := none
  frames : List Frame := []

def Ending.failed (f : Failure) : Ending := { result := .error f }

def readSettings (w : Surroundings) : Option String → Except Failure (Option Settings)
  | none => .ok none
  | some path => match w.files path with
    | none => .error .unreadable
    | some text => ((Settings.readToml text).mapError .error).map some

def settingsIn (w : Surroundings) (i : Invocation) : Except Failure Settings := do
  let file ← readSettings w i.file
  (i.settings file w.environment).mapError .error

def runOn (w : Surroundings) (c : Command) : Session.Opening → Option Ending
  | .failed sent e => some
    { result := .error (.error e), greeting := (Handshake.readRequest sent).1.toOption }
  | .opened s =>
    let (frames, j) := (Job.start s c).converse w.replies
    j.result.map fun r =>
      { result := r.mapError .error
        output := j.output
        greeting := some s.greeting
        frames }

/-- A run with given settings. Connecting takes some time, so none at all is too little. -/
def runWith (w : Surroundings) (c : Command) (s : Settings) : Option Ending :=
  if s.timeout = some 0 then some (.failed (.error .timeout))
  else if !w.listens s then some (.failed (.error (.io .connectionRefused)))
  else (Session.open? s w.reply false).bind (runOn w c)

def rehearseCommand (w : Surroundings) (i : Invocation) : Option Ending :=
  match i.command with
  | .version => some { result := .ok (), output := [versionText] }
  | c => match settingsIn w i with
    | .error f => some (.failed f)
    | .ok s => runWith w c s

def rehearse (w : Surroundings) (i : Invocation) : Option Ending :=
  if i.logDir.all w.directory then rehearseCommand w i else some (.failed .directory)

end ReqlDriver.CommandLine
