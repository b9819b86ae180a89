import ReqlDriver.Connection.Client

namespace ReqlDriver.Client

def resumeAll (c : Client) : Client := (c.tasks.map Task.id).foldl resume c

def enqueueAll (c : Client) : Client := (c.tasks.map Task.id).foldl enqueue c

def stopAllDropped (c : Client) : Client := c.stopping.foldl stopDropped c

def writeNext (c : Client) : Client :=
  match c.queue with
  | (.frame f, _) :: _ =>
    let size := f.payload.bytes.length
    if maxFrame < size then c.failWrite (.tooLong size) else c.write
  | _ => c.write

def writeAll (c : Client) : Client := c.queue.foldl (fun c _ => c.writeNext) c

def round (c : Client) : Client := c.resumeAll.enqueueAll.stopAllDropped.enqueueAll.writeAll

def Task.waits (t : Task) : Bool :=
  t.phase == .written && t.purpose.awaits && t.answer.isNone

def idle (c : Client) : Bool :=
  c.queue.isEmpty && c.stopping.isEmpty && c.tasks.all Task.waits

def settleFor : Nat → Client → Client
  | 0, c => c
  | n + 1, c => if c.idle then c else settleFor n c.round

def settle (c : Client) : Client :=
  settleFor (2 * c.tasks.length + 2 * c.stopping.length + c.queue.length + 4) c

/-- Takes in frames that arrive together. The tasks that they answer go on in the order of the
frames, but only after all of the frames are taken in, and after the end if they are the last. -/
def receiveAll (c : Client) (frames : List Frame) (last : Bool) : Client :=
  let (answers, w) := c.waiters.deliver frames
  let c := { c with waiters := w }.answerAll answers
  let c := if last then c.endOfStream else c
  answers.foldl (fun c a => (c.resume a.1).enqueue a.1) c

end ReqlDriver.Client
