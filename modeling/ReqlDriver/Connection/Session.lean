import ReqlDriver.Connection.Settle
import ReqlDriver.Protocol.Handshake
import ReqlDriver.Settings.Basic
import ReqlDriver.Text.Printable

/-!
Sessions: a connection as its user and its server see it. Calls have names, results are kept under
the names of the calls that gave them, and after each action everything runs as far as it can.
-/

namespace ReqlDriver

inductive Session.Keep
  | result
  | cursor (name : String) (k : Cursor)
  | nothing

structure Session.Pending where
  id : Nat
  keep : Session.Keep

structure Session where
  greeting : Handshake
  client : Client
  inbox : List UInt8 := []
  hungUp : Bool := false
  calls : List (String × Session.Pending) := []
  results : List (String × Result) := []

namespace Session

inductive Action
  | run (name : String) (t : Term) (o : Options)
  | noreplyWait (name : String)
  | serverInfo (name : String)
  | close (name : String)
  | next (name of : String)
  | stop (name of : String)
  | collect (name of : String)
  | intoRows (name of : String)
  | intoAtom (of : String)
  | drop (of : String)
  | cancel (of : String)
  | useDb (db : String)
  | state
  | bytes (bytes : List UInt8)
  | hangup

inductive Value
  | unavailable
  | atom (d : Option Datum)
  | state (db : Option String) (text : String)

structure Report where
  sent : List Frame
  done : List (String × Except Error Outcome)
  value : Option Value
  closed : Bool
  cursors : List (String × Nat × Bool)
  ended : Bool

def describe (c : Client) : String :=
  "Connection \x7b version: " ++ Version.v0_4.name ++
    ", db: " ++ (match c.db with
      | some db => "Some(" ++ Quoted.quote db ++ ")"
      | none => "None") ++
    ", closed: " ++ (if c.closed then "true" else "false") ++ " \x7d"

def discard (c : Client) : Result → Client
  | .cursor k => c.dropCursor k.token
  | _ => c

def keep (s : Session) (name : String) (r : Result) : Session :=
  { s with
    client := match Entries.get? s.results name with
      | some old => discard s.client old
      | none => s.client
    results := Entries.insert name r s.results }

def forget (s : Session) (name : String) : Session :=
  { s with results := s.results.filter fun r => r.1 != name }

def result? (s : Session) (name : String) : Option Result := Entries.get? s.results name

def cursor? (s : Session) (name : String) : Option Cursor :=
  match s.result? name with
  | some (.cursor k) => some k
  | _ => none

def feed (s : Session) (bytes : List UInt8) (ended : Bool) : Session :=
  if s.client.closed then s
  else
    let split := Frame.split (s.inbox ++ bytes)
    { s with
      inbox := split.rest
      client := s.client.receiveAll split.frames (ended || split.fault.isSome) }

def beginCall (s : Session) (name : String) (keep : Keep) (call : Client.Call) : Session :=
  { s with
    client := s.client.call call
    calls := s.calls ++ [(name, ⟨s.client.begun, keep⟩)] }

structure Effect where
  session : Session
  done : List (String × Except Error Outcome) := []
  value : Option Value := none

def unavailable (s : Session) : Effect := { session := s, value := some .unavailable }

def onCursor (s : Session) (name of : String) (returns : Bool) (call : UInt64 → Client.Call) :
    Effect :=
  match s.cursor? of with
  | none => s.unavailable
  | some k =>
    let keep := if returns then Keep.cursor of k else Keep.nothing
    { session := (s.forget of).beginCall name keep (call k.token) }

def intoRows (s : Session) (name of : String) : Effect :=
  match s.result? of with
  | none => s.unavailable
  | some r => match r.rows? with
    | some rows => { session := s.forget of, done := [(name, .ok (.rows rows))] }
    | none => s.onCursor name of false .collect

def intoAtom (s : Session) (of : String) : Effect :=
  match s.result? of with
  | none => s.unavailable
  | some r =>
    { session := { s.forget of with client := discard s.client r }
      value := some (.atom r.atom?) }

def drop (s : Session) (of : String) : Effect :=
  match s.result? of with
  | none => s.unavailable
  | some r => { session := { s.forget of with client := discard s.client r } }

def cancel (s : Session) (of : String) : Effect :=
  match s.calls.lookup of with
  | none => s.unavailable
  | some p =>
    let client := s.client.cancel p.id
    { session := { s with
        client := match p.keep with
          | .cursor _ k => client.dropCursor k.token
          | _ => client
        calls := s.calls.filter fun c => c.2.id != p.id } }

def act (s : Session) : Action → Effect
  | .run name t o => { session := s.beginCall name .result (.run t o) }
  | .noreplyWait name => { session := s.beginCall name .nothing .noreplyWait }
  | .serverInfo name => { session := s.beginCall name .nothing .serverInfo }
  | .close name => { session := s.beginCall name .nothing .close }
  | .next name of => s.onCursor name of true .next
  | .stop name of => s.onCursor name of true .stop
  | .collect name of => s.onCursor name of false .collect
  | .intoRows name of => s.intoRows name of
  | .intoAtom of => s.intoAtom of
  | .drop of => s.drop of
  | .cancel of => s.cancel of
  | .useDb db => { session := { s with client := s.client.useDb db } }
  | .state => { session := s, value := some (.state s.client.db (describe s.client)) }
  | .bytes bytes => { session := s.feed bytes false }
  | .hangup => { session := { s.feed [] true with hungUp := true } }

def store (s : Session) (name : String) (p : Pending) (outcome : Except Error Outcome) : Session :=
  match p.keep, outcome with
  | .result, .ok (.result r) => s.keep name r
  | .cursor of k, _ => s.keep of (.cursor k)
  | _, _ => s

def settleCall (s : Session) (id : Nat) (outcome : Except Error Outcome) :
    Session × List (String × Except Error Outcome) :=
  match s.calls.find? fun c => c.2.id == id with
  | none => (s, [])
  | some (name, p) =>
    ({ s with calls := s.calls.filter fun c => c.2.id != id }.store name p outcome,
      [(name, outcome)])

def settleCalls (s : Session) :
    List (Nat × Except Error Outcome) → Session × List (String × Except Error Outcome)
  | [] => (s, [])
  | (id, outcome) :: r =>
    let (s, here) := s.settleCall id outcome
    let (s, more) := s.settleCalls r
    (s, here ++ more)

def cursorStates (s : Session) : List (String × Nat × Bool) :=
  s.results.filterMap fun r => match r.2 with
    | .cursor k => (s.client.cursor? k.token).map fun k => (r.1, k.buffer.length, k.exhausted)
    | _ => none

def perform (s : Session) (a : Action) : Session × Report :=
  let effect := { s with client := { s.client with written := [], finished := [] } }.act a
  let client := effect.session.client.settle
  let (s, done) := { effect.session with client }.settleCalls client.finished
  let s := { s with client := s.client.settle }
  (s,
    { sent := s.client.written
      done := Entries.ofList (effect.done ++ done)
      value := effect.value
      closed := s.client.closed
      cursors := s.cursorStates
      ended := s.client.shut && !s.hungUp })

def performAll (s : Session) : List Action → Session × List Report
  | [] => (s, [])
  | a :: r =>
    let (s, report) := s.perform a
    let (s, more) := s.performAll r
    (s, report :: more)

def waiting (s : Session) : List String := Entries.keys (Entries.ofList s.calls)

inductive Opening
  | failed (sent : List UInt8) (e : Error)
  | opened (s : Session)

def open? (settings : Settings) (reply : List UInt8) (ended : Bool) : Option Opening :=
  match Handshake.connect? settings.authKey reply ended, settings.timeout with
  | none, none => none
  | none, some _ =>
    some (.failed (Handshake.header (Handshake.keyBytes settings.authKey)) .timeout)
  | some part, _ => match part.result, (Handshake.readRequest part.sent).1 with
    | .error e, _ => some (.failed part.sent e)
    | .ok _, .error e => some (.failed part.sent e)
    | .ok _, .ok greeting =>
      some (.opened (feed { greeting, client := { db := settings.db } } part.unread ended))

end Session

end ReqlDriver
