import ReqlDriver.Connection.Client

namespace ReqlDriver.Client

abbrev Ended := List (Nat × Except Error Outcome)

def behind (c : Client) (written : List Frame) (finished : Ended) : Client :=
  { c with written := written ++ c.written, finished := finished ++ c.finished }

variable {written : List Frame} {finished : Ended}

@[simp] theorem finish_behind (c : Client) (id : Nat) (outcome : Except Error Outcome) :
    (c.behind written finished).finish id outcome =
      (c.finish id outcome).behind written finished := by
  simp [behind, finish]

@[simp] theorem hold_behind (c : Client) (k : Cursor) :
    (c.behind written finished).hold k = (c.hold k).behind written finished := rfl

@[simp] theorem take_behind (c : Client) (token : UInt64) :
    (c.behind written finished).take token = (c.take token).behind written finished := rfl

@[simp] theorem spawn_behind (c : Client) (t : Task) :
    (c.behind written finished).spawn t = (c.spawn t).behind written finished := rfl

@[simp] theorem updateTask_behind (c : Client) (id : Nat) (g : Task → Task) :
    (c.behind written finished).updateTask id g = (c.updateTask id g).behind written finished := rfl

@[simp] theorem abandon_behind (c : Client) (k : Cursor) :
    (c.behind written finished).abandon k = (c.abandon k).behind written finished := by
  unfold abandon
  split <;> rfl

@[simp] theorem dismiss_behind (c : Client) (t : Task) :
    (c.behind written finished).dismiss t = (c.dismiss t).behind written finished := by
  unfold dismiss
  split <;> rfl

@[simp] theorem answerAll_behind (c : Client) (answers : List (Nat × Answer)) :
    (c.behind written finished).answerAll answers =
      (c.answerAll answers).behind written finished := by
  induction answers generalizing c with
  | nil => rfl
  | cons a r ih => exact ih (c.updateTask a.1 fun t => { t with answer := some a.2 })

theorem request_behind (c : Client) (id : Nat) (purpose : Purpose) (f : Frame) :
    (c.behind written finished).request id purpose f =
      (c.request id purpose f).map fun d => d.behind written finished := by
  unfold request
  have hw : (c.behind written finished).waiters = c.waiters := rfl
  rw [hw]
  cases c.waiters.register f.token id <;> rfl

@[simp] theorem requestOrFail_behind (c : Client) (id : Nat) (purpose : Purpose) (f : Frame) :
    (c.behind written finished).requestOrFail id purpose f =
      (c.requestOrFail id purpose f).behind written finished := by
  simp only [requestOrFail, request_behind]
  cases c.request id purpose f <;> simp [Except.map]

@[simp] theorem advance_behind (c : Client) (id : Nat) (k : Cursor) :
    (c.behind written finished).advance id k = (c.advance id k).behind written finished := by
  simp only [advance, request_behind]
  cases k.move with
  | row d rest => simp
  | ended => simp
  | fetch =>
    dsimp only
    cases c.request id (.next k) (Frame.control k.token .fetch) <;> simp [Except.map]

@[simp] theorem gather_behind (c : Client) (id : Nat) (k : Cursor) (rows : List Datum) :
    (c.behind written finished).gather id k rows =
      (c.gather id k rows).behind written finished := by
  simp only [gather, request_behind]
  split
  · simp
  · generalize c.request id _ _ = d
    cases d <;> simp [Except.map]

@[simp] theorem finishRun_behind (c : Client) (id : Nat) (r : Except Error Result) :
    (c.behind written finished).finishRun id r = (c.finishRun id r).behind written finished := by
  unfold finishRun
  split <;> simp

@[simp] theorem proceed_behind (c : Client) (id : Nat) (purpose : Purpose) (token : UInt64)
    (a : Answer) : (c.behind written finished).proceed id purpose token a =
      (c.proceed id purpose token a).behind written finished := by
  unfold proceed
  split
  · simp
  · simp
  · simp
  · split <;> simp
  · split <;> simp
  · rfl

@[simp] theorem complete_behind (c : Client) (t : Task) :
    (c.behind written finished).complete t = (c.complete t).behind written finished := by
  simp only [complete, dismiss_behind]
  split <;> simp

@[simp] theorem refuse_behind (c : Client) (t : Task) :
    (c.behind written finished).refuse t = (c.refuse t).behind written finished := by
  simp only [refuse, dismiss_behind]
  split <;> simp

@[simp] theorem endOfStream_behind (c : Client) :
    (c.behind written finished).endOfStream = c.endOfStream.behind written finished := by
  exact answerAll_behind { c with waiters := c.waiters.failAll.2 } _

@[simp] theorem receive_behind (c : Client) (f : Frame) :
    (c.behind written finished).receive f = (c.receive f).behind written finished :=
  answerAll_behind { c with waiters := (c.waiters.dispatch f).2 } _

theorem beginRun_behind (c : Client) (id : Nat) (q : Term) (o : Options) :
    (c.behind written finished).beginRun id q o =
      (c.beginRun id q o).behind written finished := by
  have hc : (c.behind written finished).closed = c.closed := rfl
  simp only [beginRun, hc]
  split
  · simp
  · split
    · rfl
    · exact requestOrFail_behind c.issue.2 _ _ _

theorem beginStop_behind (c : Client) (id : Nat) (k : Cursor) :
    (c.behind written finished).beginStop id k = (c.beginStop id k).behind written finished := by
  unfold beginStop
  split
  · simp
  · change (if c.closed = true then _ else _) = behind (if c.closed = true then _ else _) _ _
    split
    · exact finish_behind ({ c with waiters := c.waiters.remove k.token }.hold k.stopped) id _
    · rfl

theorem beginClose_behind (c : Client) (id : Nat) :
    (c.behind written finished).beginClose id = (c.beginClose id).behind written finished := by
  have hc : (c.behind written finished).closed = c.closed := rfl
  simp only [beginClose, hc]
  split <;> simp

theorem call_behind (c : Client) (call : Call) :
    (c.behind written finished).call call = (c.call call).behind written finished := by
  let d : Client := { c with begun := c.begun + 1 }
  have hcursor (token : UInt64) : (c.behind written finished).cursor? token = c.cursor? token := rfl
  cases call with
  | run q o => exact beginRun_behind d _ q o
  | noreplyWait => exact requestOrFail_behind d.issue.2 _ _ _
  | serverInfo => exact requestOrFail_behind d.issue.2 _ _ _
  | close => exact beginClose_behind d _
  | next token =>
    simp only [Client.call, hcursor]
    split
    · rfl
    · exact advance_behind (d.take token) _ _
  | collect token =>
    simp only [Client.call, hcursor]
    split
    · rfl
    · exact gather_behind (d.take token) _ _ _
  | stop token =>
    simp only [Client.call, hcursor]
    split
    · rfl
    · exact beginStop_behind (d.take token) _ _

theorem enqueue_behind (c : Client) (id : Nat) :
    (c.behind written finished).enqueue id = (c.enqueue id).behind written finished := by
  have ht : (c.behind written finished).task? id = c.task? id := rfl
  have hs : (c.behind written finished).shut = c.shut := rfl
  have hq : (c.behind written finished).queue = c.queue := rfl
  simp only [enqueue, ht, hs, hq]
  split
  · rfl
  · split
    · rfl
    · split
      · rfl
      · split <;> rfl

theorem write_behind (c : Client) :
    (c.behind written finished).write = c.write.behind written finished := by
  have hq : (c.behind written finished).queue = c.queue := rfl
  simp only [write, hq]
  split
  · rfl
  · simp [behind, updateTask]
  · rfl

theorem failWrite_behind (c : Client) (fault : WriteFault) :
    (c.behind written finished).failWrite fault = (c.failWrite fault).behind written finished := by
  have hq : (c.behind written finished).queue = c.queue := rfl
  simp only [failWrite, hq]
  split <;> rfl

theorem resume_behind (c : Client) (id : Nat) :
    (c.behind written finished).resume id = (c.resume id).behind written finished := by
  have ht : (c.behind written finished).task? id = c.task? id := rfl
  simp only [resume, ht]
  split
  · rfl
  · split <;> simp [conclude]

theorem cancel_behind (c : Client) (id : Nat) :
    (c.behind written finished).cancel id = (c.cancel id).behind written finished := by
  have ht : (c.behind written finished).task? id = c.task? id := rfl
  simp only [cancel, ht]
  split
  · rfl
  · split <;> simp

theorem dropCursor_behind (c : Client) (token : UInt64) :
    (c.behind written finished).dropCursor token =
      (c.dropCursor token).behind written finished := by
  have hc : (c.behind written finished).cursor? token = c.cursor? token := rfl
  simp only [dropCursor, hc]
  split <;> simp

theorem stopDropped_behind (c : Client) (token : UInt64) :
    (c.behind written finished).stopDropped token =
      (c.stopDropped token).behind written finished := by
  unfold stopDropped
  change (if c.stopping.contains token = true then if c.closed = true then _ else _ else _) =
    behind (if c.stopping.contains token = true then if c.closed = true then _ else _ else _) _ _
  split
  · split <;> rfl
  · rfl

theorem step_behind (c : Client) (e : Event) :
    (c.behind written finished).step e = (c.step e).behind written finished := by
  cases e with
  | call call => exact call_behind c call
  | dropCursor token => exact dropCursor_behind c token
  | useDb name => rfl
  | cancel id => exact cancel_behind c id
  | stopDropped token => exact stopDropped_behind c token
  | enqueue id => exact enqueue_behind c id
  | write => exact write_behind c
  | failWrite fault => exact failWrite_behind c fault
  | receive f => exact receive_behind c f
  | endOfStream => exact endOfStream_behind c
  | resume id => exact resume_behind c id

theorem after_behind (c : Client) (events : List Event) :
    (c.behind written finished).after events = (c.after events).behind written finished := by
  induction events generalizing c with
  | nil => rfl
  | cons e r ih =>
    have hs : (c.behind written finished).step e = _ := step_behind c e
    calc (c.behind written finished).after (e :: r)
        = ((c.behind written finished).step e).after r := rfl
      _ = ((c.step e).after r).behind written finished := by rw [hs, ih]

end ReqlDriver.Client
