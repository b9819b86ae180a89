import ReqlDriver.Connection.Cursor
import ReqlDriver.Protocol.Query

/-!
The client's end of a connection, as a machine whose steps may come in any order.

A call becomes a task. What it sends goes to a queue of bounded length, from which a writer takes
one piece of work after the other; a request is entered in the table of waiters before its frame is
sent, and leaves it when its answer arrives, or when it is cancelled. Cursors belong to the callers;
while a call works on one it is in that call's task.
-/

namespace ReqlDriver

inductive Work
  | frame (f : Frame)
  | shutdown

inductive Purpose
  | run
  | silent
  | noreplyWait
  | serverInfo
  | next (c : Cursor)
  | collect (c : Cursor) (rows : List Datum)
  | stop (c : Cursor)
  | abandon
  | close

def Purpose.awaits : Purpose → Bool
  | run => true
  | noreplyWait => true
  | serverInfo => true
  | next _ => true
  | collect _ _ => true
  | _ => false

/-- Where the work of a task is. Work that the writer failed at, or did not get to before it ended, is
refused. -/
inductive Phase
  | unsent
  | queued
  | written
  | refused
deriving DecidableEq

inductive WriteFault
  | tooLong (bytes : Nat)
  | broken (fault : IoFault)

def WriteFault.error : WriteFault → Error
  | tooLong bytes => .protocol (.frameTooLong bytes)
  | broken fault => .io fault

structure Task where
  id : Nat
  purpose : Purpose
  work : Work
  phase : Phase := .unsent
  answer : Option Answer := none
  fault : Option WriteFault := none

def Task.refusal (t : Task) : Error := (t.fault.map WriteFault.error).getD .connectionClosed

inductive Outcome
  | result (r : Result)
  | row (d : Option Datum)
  | rows (ds : List Datum)
  | info (d : Datum)
  | done

/-- `issued` counts the tokens and `begun` the calls so far. `cursors` are those that no call works
on, and `stopping` are the tokens of dropped cursors that the server is still to be told of.
`written` and `finished` record all frames sent and all calls that have come to an end. -/
structure Client where
  db : Option String := none
  issued : Nat := 0
  begun : Nat := 0
  waiters : Waiters := {}
  tasks : List Task := []
  cursors : List Cursor := []
  stopping : List UInt64 := []
  queue : List (Work × Nat) := []
  shut : Bool := false
  written : List Frame := []
  finished : List (Nat × Except Error Outcome) := []

namespace Client

def capacity : Nat := 256

def closed (c : Client) : Bool := c.waiters.closed

def task? (c : Client) (id : Nat) : Option Task := c.tasks.find? fun t => t.id == id

def updateTask (c : Client) (id : Nat) (f : Task → Task) : Client :=
  { c with tasks := c.tasks.map fun t => if t.id = id then f t else t }

def cursor? (c : Client) (token : UInt64) : Option Cursor :=
  c.cursors.find? fun k => k.token == token

def hold (c : Client) (k : Cursor) : Client := { c with cursors := k :: c.cursors }

def take (c : Client) (token : UInt64) : Client :=
  { c with cursors := c.cursors.filter fun k => k.token != token }

def abandon (c : Client) (k : Cursor) : Client :=
  if k.exhausted then c else { c with stopping := c.stopping ++ [k.token] }

def finish (c : Client) (id : Nat) (outcome : Except Error Outcome) : Client :=
  { c with finished := c.finished ++ [(id, outcome)] }

def spawn (c : Client) (t : Task) : Client := { c with tasks := c.tasks ++ [t] }

def dismiss (c : Client) (t : Task) : Client :=
  let c := { c with tasks := c.tasks.filter fun u => u.id != t.id }
  match t.purpose.awaits, t.work with
  | true, .frame f => { c with waiters := c.waiters.remove f.token }
  | _, _ => c

def issue (c : Client) : UInt64 × Client :=
  (UInt64.ofNat (c.issued + 1), { c with issued := c.issued + 1 })

def request (c : Client) (id : Nat) (purpose : Purpose) (f : Frame) : Except Error Client :=
  (c.waiters.register f.token id).map fun w =>
    { c with waiters := w }.spawn { id, purpose, work := .frame f }

def requestOrFail (c : Client) (id : Nat) (purpose : Purpose) (f : Frame) : Client :=
  match c.request id purpose f with
  | .ok c => c
  | .error e => c.finish id (.error e)

def advance (c : Client) (id : Nat) (k : Cursor) : Client :=
  match k.move with
  | .row d rest => (c.hold rest).finish id (.ok (.row (some d)))
  | .ended => (c.hold k).finish id (.ok (.row none))
  | .fetch => match c.request id (.next k) (Frame.control k.token .fetch) with
    | .ok c => c
    | .error e => (c.hold k).finish id (.error e)

def gather (c : Client) (id : Nat) (k : Cursor) (rows : List Datum) : Client :=
  let rows := rows ++ k.buffer
  let k := { k with buffer := [] }
  if k.exhausted then c.finish id (.ok (.rows rows))
  else match c.request id (.collect k rows) (Frame.control k.token .fetch) with
    | .ok c => c
    | .error e => (c.abandon k).finish id (.error e)

def tellStop (c : Client) (token : UInt64) (id : Nat) (purpose : Purpose) : Client :=
  c.spawn { id, purpose, work := .frame (Frame.control token .stop) }

def answerAll (c : Client) (answers : List (Nat × Answer)) : Client :=
  answers.foldl (fun c a => c.updateTask a.1 fun t => { t with answer := some a.2 }) c

def receive (c : Client) (f : Frame) : Client :=
  let (answers, w) := c.waiters.dispatch f
  { c with waiters := w }.answerAll answers

def endOfStream (c : Client) : Client :=
  let (answers, w) := c.waiters.failAll
  { c with waiters := w }.answerAll answers

inductive Call
  | run (t : Term) (o : Options)
  | noreplyWait
  | serverInfo
  | next (token : UInt64)
  | collect (token : UInt64)
  | stop (token : UInt64)
  | close

def beginRun (c : Client) (id : Nat) (t : Term) (o : Options) : Client :=
  if c.closed then c.finish id (.error .connectionClosed)
  else
    let (token, c) := c.issue
    let f := Frame.start token t (o.entries c.db)
    if o.noreply then c.spawn { id, purpose := .silent, work := .frame f }
    else c.requestOrFail id .run f

def beginControl (c : Client) (id : Nat) (purpose : Purpose) (type : QueryType) : Client :=
  let (token, c) := c.issue
  c.requestOrFail id purpose (Frame.control token type)

def beginStop (c : Client) (id : Nat) (k : Cursor) : Client :=
  if k.exhausted then (c.hold k.stopped).finish id (.ok .done)
  else
    let c := { c with waiters := c.waiters.remove k.token }
    if c.closed then (c.hold k.stopped).finish id (.ok .done)
    else c.tellStop k.token id (.stop k.stopped)

def beginClose (c : Client) (id : Nat) : Client :=
  if c.closed then c.finish id (.ok .done)
  else c.endOfStream.spawn { id, purpose := .close, work := .shutdown }

def call (c : Client) (call : Call) : Client :=
  let id := c.begun
  let begun := { c with begun := id + 1 }
  match call with
  | .run t o => begun.beginRun id t o
  | .noreplyWait => begun.beginControl id .noreplyWait .noreplyWait
  | .serverInfo => begun.beginControl id .serverInfo .serverInfo
  | .close => begun.beginClose id
  | .next token => match c.cursor? token with
    | none => c
    | some k => (begun.take token).advance id k
  | .collect token => match c.cursor? token with
    | none => c
    | some k => (begun.take token).gather id k []
  | .stop token => match c.cursor? token with
    | none => c
    | some k => (begun.take token).beginStop id k

def dropCursor (c : Client) (token : UInt64) : Client :=
  match c.cursor? token with
  | none => c
  | some k => (c.take token).abandon k

def stopDropped (c : Client) (token : UInt64) : Client :=
  if c.stopping.contains token then
    let c := { c with stopping := c.stopping.erase token, waiters := c.waiters.remove token }
    if c.closed then c
    else { c with begun := c.begun + 1 }.tellStop token c.begun .abandon
  else c

def enqueue (c : Client) (id : Nat) : Client :=
  match c.task? id with
  | none => c
  | some t =>
    if t.phase ≠ .unsent then c
    else if c.shut then c.updateTask id fun t => { t with phase := .refused }
    else if c.queue.length < capacity then
      { c with queue := c.queue ++ [(t.work, id)] }.updateTask id fun t =>
        { t with phase := .queued }
    else c

def write (c : Client) : Client :=
  match c.queue with
  | [] => c
  | (.frame f, id) :: rest =>
    { c with queue := rest, written := c.written ++ [f] }.updateTask id fun t =>
      { t with phase := .written }
  | (.shutdown, id) :: rest =>
    { c with
      queue := []
      shut := true
      tasks := c.tasks.map fun t =>
        if t.id = id then { t with phase := .written }
        else if rest.any fun w => w.2 == t.id then { t with phase := .refused }
        else t }

def failWrite (c : Client) (fault : WriteFault) : Client :=
  match c.queue with
  | (.frame _, id) :: rest =>
    { c with queue := rest }.updateTask id fun t => { t with phase := .refused, fault := some fault }
  | _ => c

def complete (c : Client) (t : Task) : Client :=
  let c := c.dismiss t
  match t.purpose with
  | .silent => c.finish t.id (.ok (.result .empty))
  | .stop k => (c.hold k).finish t.id (.ok .done)
  | .close => c.finish t.id (.ok .done)
  | _ => c

def refuse (c : Client) (t : Task) : Client :=
  let c := c.dismiss t
  match t.purpose with
  | .next k => (c.hold k).finish t.id (.error t.refusal)
  | .stop k => (c.hold k).finish t.id (.error t.refusal)
  | .collect k _ => (c.abandon k).finish t.id (.error t.refusal)
  | .close => c.finish t.id (.ok .done)
  | .abandon => c
  | _ => c.finish t.id (.error t.refusal)

def finishRun (c : Client) (id : Nat) (r : Except Error Result) : Client :=
  match r with
  | .ok (.cursor k) => (c.hold k).finish id (.ok (.result (.cursor k)))
  | .ok r => c.finish id (.ok (.result r))
  | .error e => c.finish id (.error e)

def proceed (c : Client) (id : Nat) (purpose : Purpose) (token : UInt64) (a : Answer) : Client :=
  match purpose with
  | .run => c.finishRun id (a.result token)
  | .noreplyWait => c.finish id (a.waited.map fun _ => .done)
  | .serverInfo => c.finish id (a.info.map .info)
  | .next k => match k.receive a with
    | (k, some e) => (c.hold k).finish id (.error e)
    | (k, none) => c.advance id k
  | .collect k rows => match k.receive a with
    | (k, some e) => (c.abandon k).finish id (.error e)
    | (k, none) => c.gather id k rows
  | _ => c

def conclude (c : Client) (t : Task) (f : Frame) (a : Answer) : Client :=
  (c.dismiss t).proceed t.id t.purpose f.token a

def resume (c : Client) (id : Nat) : Client :=
  match c.task? id with
  | none => c
  | some t => match t.phase, t.purpose.awaits, t.work, t.answer with
    | .refused, _, _, _ => c.refuse t
    | .written, false, _, _ => c.complete t
    | .written, true, .frame f, some a => c.conclude t f a
    | _, _, _, _ => c

/-- A caller gives up a call. The cursor goes back into the caller's hands, unless the call was to
use it up. What is in the queue is still sent. -/
def cancel (c : Client) (id : Nat) : Client :=
  match c.task? id with
  | none => c
  | some t => match t.purpose with
    | .next k => (c.dismiss t).hold k
    | .stop k => (c.dismiss t).hold k
    | .collect k _ => (c.dismiss t).abandon k
    | .abandon => c
    | _ => c.dismiss t

def useDb (c : Client) (name : String) : Client := { c with db := some name }

inductive Event
  | call (call : Call)
  | dropCursor (token : UInt64)
  | useDb (name : String)
  | cancel (id : Nat)
  | stopDropped (token : UInt64)
  | enqueue (id : Nat)
  | write
  | failWrite (fault : WriteFault)
  | receive (f : Frame)
  | endOfStream
  | resume (id : Nat)

def step (c : Client) : Event → Client
  | .call call => Client.call c call
  | .dropCursor token => c.dropCursor token
  | .useDb name => c.useDb name
  | .cancel id => c.cancel id
  | .stopDropped token => c.stopDropped token
  | .enqueue id => c.enqueue id
  | .write => c.write
  | .failWrite fault => c.failWrite fault
  | .receive f => c.receive f
  | .endOfStream => c.endOfStream
  | .resume id => c.resume id

def after (c : Client) (events : List Event) : Client := events.foldl step c

def Reachable (c : Client) : Prop := ∃ db events, c = after { db } events

end Client

end ReqlDriver
