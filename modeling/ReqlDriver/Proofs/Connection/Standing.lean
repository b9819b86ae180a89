import ReqlDriver.Proofs.Connection.Steps

namespace ReqlDriver

structure Standing where
  issued : Nat
  begun : Nat
  queue : List (Work × Nat)
  shut : Bool
  written : List Frame
  closed : Bool

namespace Client

def standing (c : Client) : Standing :=
  ⟨c.issued, c.begun, c.queue, c.shut, c.written, c.closed⟩

structure Admits (c : Client) (t : Task) : Prop where
  phase : t.phase = .unsent
  shut : c.shut = false
  room : c.queue.length < capacity

def Fills (c : Client) (e : Event) : Prop :=
  ∃ t, e = .enqueue t.id ∧ c.task? t.id = some t ∧ c.Admits t

def opens (c : Client) : Event → List Frame
  | .call (.run q o) => if c.closed then [] else [Frame.start c.issue.1 q (o.entries c.db)]
  | .call .noreplyWait => [Frame.control c.issue.1 .noreplyWait]
  | .call .serverInfo => [Frame.control c.issue.1 .serverInfo]
  | _ => []

def Event.ends : Event → Bool
  | .call .close => true
  | .endOfStream => true
  | _ => false

def Event.enqueues : Event → Bool
  | .enqueue _ => true
  | _ => false

def Event.writes : Event → Bool
  | .write => true
  | .failWrite _ => true
  | _ => false

def Event.inner : Event → Bool
  | .stopDropped _ => true
  | .enqueue _ => true
  | .write => true
  | .failWrite _ => true
  | .receive _ => true
  | .endOfStream => true
  | _ => false

variable {c : Client} {id : Nat}

@[simp] theorem standing_finish (c : Client) (id : Nat) (outcome : Except Error Outcome) :
    (c.finish id outcome).standing = c.standing := rfl

@[simp] theorem standing_hold (c : Client) (k : Cursor) : (c.hold k).standing = c.standing := rfl

@[simp] theorem standing_take (c : Client) (token : UInt64) :
    (c.take token).standing = c.standing := rfl

@[simp] theorem standing_spawn (c : Client) (t : Task) : (c.spawn t).standing = c.standing := rfl

@[simp] theorem standing_updateTask (c : Client) (id : Nat) (g : Task → Task) :
    (c.updateTask id g).standing = c.standing := rfl

@[simp] theorem standing_abandon (c : Client) (k : Cursor) :
    (c.abandon k).standing = c.standing := by
  unfold abandon
  split <;> rfl

@[simp] theorem standing_dismiss (c : Client) (t : Task) :
    (c.dismiss t).standing = c.standing := by
  unfold dismiss
  split <;> rfl

theorem closed_dismiss (c : Client) (t : Task) : (c.dismiss t).closed = c.closed :=
  congrArg Standing.closed (standing_dismiss c t)

@[simp] theorem standing_answerAll (c : Client) (answers : List (Nat × Answer)) :
    (c.answerAll answers).standing = c.standing := by
  induction answers generalizing c with
  | nil => rfl
  | cons a r ih => exact ih _

theorem standing_request {c' : Client} {purpose : Purpose} {f : Frame}
    (h : c.request id purpose f = .ok c') : c'.standing = c.standing := by
  obtain ⟨-, -, rfl⟩ := request_eq_ok_iff.mp h
  rfl

@[simp] theorem standing_requestOrFail (c : Client) (id : Nat) (purpose : Purpose) (f : Frame) :
    (c.requestOrFail id purpose f).standing = c.standing := by
  unfold requestOrFail
  split
  · rename_i hr
    exact standing_request hr
  · rfl

@[simp] theorem standing_advance (c : Client) (id : Nat) (k : Cursor) :
    (c.advance id k).standing = c.standing := by
  unfold advance
  split
  · rfl
  · rfl
  · split
    · rename_i hr
      exact standing_request hr
    · rfl

@[simp] theorem standing_gather (c : Client) (id : Nat) (k : Cursor) (rows : List Datum) :
    (c.gather id k rows).standing = c.standing := by
  unfold gather
  dsimp only
  split
  · rfl
  · split
    · rename_i hr
      exact standing_request hr
    · simp

@[simp] theorem standing_beginStop (c : Client) (id : Nat) (k : Cursor) :
    (c.beginStop id k).standing = c.standing := by
  unfold beginStop
  split
  · rfl
  · dsimp only
    split <;> rfl

@[simp] theorem standing_finishRun (c : Client) (id : Nat) (r : Except Error Result) :
    (c.finishRun id r).standing = c.standing := by
  unfold finishRun
  split <;> rfl

@[simp] theorem standing_proceed (c : Client) (id : Nat) (purpose : Purpose) (token : UInt64)
    (a : Answer) : (c.proceed id purpose token a).standing = c.standing := by
  unfold proceed
  split
  · simp
  · rfl
  · rfl
  · split <;> simp
  · split <;> simp
  · rfl

@[simp] theorem standing_resume (c : Client) (id : Nat) :
    (c.resume id).standing = c.standing := by
  unfold resume
  split
  · rfl
  · split
    · unfold refuse
      dsimp only
      split <;> simp
    · unfold complete
      dsimp only
      split <;> simp
    · simp [conclude]
    · rfl

@[simp] theorem standing_cancel (c : Client) (id : Nat) :
    (c.cancel id).standing = c.standing := by
  unfold cancel
  split
  · rfl
  · split <;> simp

@[simp] theorem standing_dropCursor (c : Client) (token : UInt64) :
    (c.dropCursor token).standing = c.standing := by
  unfold dropCursor
  split <;> simp

theorem standing_stopDropped (c : Client) (token : UInt64) : ∃ n, c.begun ≤ n ∧
    (c.stopDropped token).standing = { c.standing with begun := n } := by
  unfold stopDropped
  split
  · dsimp only
    split
    · exact ⟨c.begun, Nat.le_refl _, rfl⟩
    · exact ⟨c.begun + 1, Nat.le_succ _, rfl⟩
  · exact ⟨c.begun, Nat.le_refl _, rfl⟩

@[simp] theorem standing_receive (c : Client) (f : Frame) :
    (c.receive f).standing = c.standing := by
  unfold receive Waiters.dispatch
  cases c.waiters.get? f.token with
  | none => rfl
  | some i => exact standing_answerAll _ _

theorem standing_endOfStream (c : Client) :
    c.endOfStream.standing = { c.standing with closed := true } := by
  unfold endOfStream Waiters.failAll
  simp
  rfl

theorem standing_beginRun (c : Client) (id : Nat) (q : Term) (o : Options) :
    (c.beginRun id q o).standing =
      { c.standing with issued := c.issued + (c.opens (.call (.run q o))).length } := by
  cases hc : c.closed with
  | true =>
    rw [beginRun_closed hc, opens, hc]
    rfl
  | false =>
    rw [opens, hc]
    cases ho : o.noreply with
    | true =>
      rw [beginRun_noreply hc q ho]
      rfl
    | false =>
      rw [beginRun_request hc q ho, standing_requestOrFail]
      rfl

theorem standing_beginClose (c : Client) (id : Nat) :
    (c.beginClose id).standing = { c.standing with closed := true } := by
  unfold beginClose
  split
  · rename_i hc
    rw [standing_finish, ← hc]
    rfl
  · exact standing_endOfStream c

theorem standing_call (c : Client) (call : Call) : ∃ n, c.begun ≤ n ∧ (c.call call).standing =
    { c.standing with
      issued := c.issued + (c.opens (.call call)).length
      begun := n
      closed := c.closed || (Event.call call).ends } := by
  have hle : c.begun ≤ c.begun + 1 := Nat.le_succ _
  cases call with
  | run q o =>
    refine ⟨_, hle, ?_⟩
    simp only [Event.ends, Bool.or_false]
    exact standing_beginRun { c with begun := c.begun + 1 } c.begun q o
  | noreplyWait =>
    refine ⟨_, hle, ?_⟩
    simp only [Event.ends, Bool.or_false]
    exact standing_requestOrFail _ _ _ _
  | serverInfo =>
    refine ⟨_, hle, ?_⟩
    simp only [Event.ends, Bool.or_false]
    exact standing_requestOrFail _ _ _ _
  | close =>
    refine ⟨_, hle, ?_⟩
    simp only [Event.ends, Bool.or_true]
    exact standing_beginClose { c with begun := c.begun + 1 } c.begun
  | next token | collect token | stop token =>
    simp only [Event.ends, Bool.or_false]
    cases hk : c.cursor? token with
    | none => exact ⟨c.begun, Nat.le_refl _, by simp only [Client.call, hk]; rfl⟩
    | some k =>
      refine ⟨_, hle, ?_⟩
      simp only [Client.call, hk, standing_advance, standing_gather, standing_beginStop]
      rfl

inductive Stands (c : Client) : Event → Standing → Prop
  | quiet {e : Event} {n : Nat} : e.writes = false → ¬ c.Fills e → c.begun ≤ n →
      Stands c e { c.standing with
        issued := c.issued + (c.opens e).length
        begun := n
        closed := c.closed || e.ends }
  | queued {t : Task} : c.task? t.id = some t → c.Admits t →
      Stands c (.enqueue t.id) { c.standing with queue := c.queue ++ [(t.work, t.id)] }
  | idle {e : Event} : e.writes = true → c.queue = [] → Stands c e c.standing
  | written {f : Frame} {id : Nat} {rest : List (Work × Nat)} : c.queue = (.frame f, id) :: rest →
      Stands c .write { c.standing with queue := rest, written := c.written ++ [f] }
  | shut {id : Nat} {rest : List (Work × Nat)} : c.queue = (.shutdown, id) :: rest →
      Stands c .write { c.standing with queue := [], shut := true }
  | failed {f : Frame} {id : Nat} {rest : List (Work × Nat)} {fault : WriteFault} :
      c.queue = (.frame f, id) :: rest →
      Stands c (.failWrite fault) { c.standing with queue := rest }
  | spared {id : Nat} {rest : List (Work × Nat)} {fault : WriteFault} :
      c.queue = (.shutdown, id) :: rest → Stands c (.failWrite fault) c.standing

theorem not_fills {e : Event} (h : e.enqueues = false) : ¬ c.Fills e := by
  rintro ⟨t, rfl, -⟩
  cases h

theorem Stands.still {e : Event} (hw : e.writes = false) (ha : ¬ c.Fills e)
    (ho : c.opens e = []) (he : e.ends = false) {n : Nat} (hn : c.begun ≤ n) :
    Stands c e { c.standing with begun := n } := by
  have hq := Stands.quiet hw ha hn
  rw [ho, he, Bool.or_false] at hq
  exact hq

theorem stands_enqueue (c : Client) (id : Nat) :
    Stands c (.enqueue id) (c.enqueue id).standing := by
  have hstill (ha : ¬ c.Fills (.enqueue id)) : Stands c (.enqueue id) c.standing :=
    .still rfl ha rfl rfl (Nat.le_refl _)
  cases ht : c.task? id with
  | none =>
    have he : c.enqueue id = c := by simp only [enqueue, ht]
    rw [he]
    apply hstill
    rintro ⟨u, hu, hu', -⟩
    obtain rfl := Event.enqueue.inj hu
    cases ht.symm.trans hu'
  | some t =>
    obtain ⟨-, rfl⟩ := mem_of_task? ht
    by_cases ha : c.Admits t
    · rw [enqueue_queued ht ha.phase ha.shut ha.room]
      exact .queued ht ha
    · have hs : (c.enqueue t.id).standing = c.standing := by
        by_cases hp : t.phase = .unsent
        · rcases Bool.eq_false_or_eq_true c.shut with hs | hs
          · rw [enqueue_barred ht hp hs]
            rfl
          · have hq : ¬ c.queue.length < capacity := fun hq => ha ⟨hp, hs, hq⟩
            simp [enqueue, ht, hp, hs, hq]
        · simp [enqueue, ht, hp]
      rw [hs]
      apply hstill
      rintro ⟨u, hu, hu', hau⟩
      rw [← Event.enqueue.inj hu, ht] at hu'
      obtain rfl := Option.some.inj hu'
      exact ha hau

theorem stands_write (c : Client) : Stands c .write c.write.standing := by
  unfold write
  split
  · rename_i hq
    exact .idle rfl hq
  · rename_i hq
    exact .written hq
  · rename_i hq
    exact .shut hq

theorem stands_failWrite (c : Client) (fault : WriteFault) :
    Stands c (.failWrite fault) (c.failWrite fault).standing := by
  cases hq : c.queue with
  | nil =>
    have he : c.failWrite fault = c := by simp only [failWrite, hq]
    rw [he]
    exact .idle rfl hq
  | cons w rest =>
    obtain ⟨work, id⟩ := w
    cases work with
    | frame f =>
      simp only [failWrite, hq]
      exact .failed hq
    | shutdown =>
      have he : c.failWrite fault = c := by simp only [failWrite, hq]
      rw [he]
      exact .spared hq

theorem stands_step (c : Client) (e : Event) : Stands c e (c.step e).standing := by
  cases e with
  | call call =>
    obtain ⟨n, hn, hs⟩ := standing_call c call
    rw [step, hs]
    exact .quiet rfl (not_fills rfl) hn
  | dropCursor token =>
    rw [step, standing_dropCursor]
    exact .still rfl (not_fills rfl) rfl rfl (Nat.le_refl _)
  | useDb name => exact .still rfl (not_fills rfl) rfl rfl (Nat.le_refl _)
  | cancel id =>
    rw [step, standing_cancel]
    exact .still rfl (not_fills rfl) rfl rfl (Nat.le_refl _)
  | stopDropped token =>
    obtain ⟨n, hn, hs⟩ := standing_stopDropped c token
    rw [step, hs]
    exact .still rfl (not_fills rfl) rfl rfl hn
  | enqueue id => exact stands_enqueue c id
  | write => exact stands_write c
  | failWrite fault => exact stands_failWrite c fault
  | receive f =>
    rw [step, standing_receive]
    exact .still rfl (not_fills rfl) rfl rfl (Nat.le_refl _)
  | endOfStream =>
    have hq : Stands c .endOfStream _ := .quiet rfl (not_fills rfl) (Nat.le_refl _)
    rw [Event.ends, Bool.or_true] at hq
    rw [step, standing_endOfStream]
    exact hq
  | resume id =>
    rw [step, standing_resume]
    exact .still rfl (not_fills rfl) rfl rfl (Nat.le_refl _)

theorem step_inner (c : Client) {e : Event} (he : e.inner = true) :
    (c.step e).finished = c.finished ∧ (c.step e).cursors = c.cursors := by
  cases e with
  | stopDropped token =>
    rw [step, stopDropped]
    split
    · dsimp only
      split <;> exact ⟨rfl, rfl⟩
    · exact ⟨rfl, rfl⟩
  | enqueue id =>
    rw [step, enqueue]
    split
    · exact ⟨rfl, rfl⟩
    · split
      · exact ⟨rfl, rfl⟩
      · split
        · exact ⟨rfl, rfl⟩
        · split <;> exact ⟨rfl, rfl⟩
  | write =>
    rw [step, write]
    split <;> exact ⟨rfl, rfl⟩
  | failWrite fault =>
    rw [step, failWrite]
    split <;> exact ⟨rfl, rfl⟩
  | receive f => exact ⟨finished_answerAll _ _, cursors_answerAll _ _⟩
  | endOfStream => exact ⟨finished_answerAll _ _, cursors_answerAll _ _⟩
  | call | dropCursor | useDb | cancel | resume => cases he

theorem opens_cases (c : Client) (e : Event) :
    c.opens e = [] ∨ ∃ f, c.opens e = [f] ∧ f.token = c.issue.1 := by
  unfold opens
  split
  · split
    · exact .inl rfl
    · exact .inr ⟨_, rfl, rfl⟩
  · exact .inr ⟨_, rfl, rfl⟩
  · exact .inr ⟨_, rfl, rfl⟩
  · exact .inl rfl

theorem opens_of_writes {e : Event} (h : e.writes = true) : c.opens e = [] := by
  cases e with
  | write => rfl
  | failWrite fault => rfl
  | _ => cases h

theorem ends_of_writes {e : Event} (h : e.writes = true) : e.ends = false := by
  cases e with
  | write => rfl
  | failWrite fault => rfl
  | _ => cases h

theorem issued_step (c : Client) (e : Event) :
    (c.step e).issued = c.issued + (c.opens e).length := by
  obtain ⟨s, hs, hq⟩ : ∃ s, Stands c e s ∧ (c.step e).issued = s.issued := ⟨_, stands_step c e, rfl⟩
  rw [hq]
  cases hs with
  | idle hw _ =>
    rw [opens_of_writes hw]
    rfl
  | _ => rfl

theorem begun_le_step (c : Client) (e : Event) : c.begun ≤ (c.step e).begun := by
  obtain ⟨s, hs, hq⟩ : ∃ s, Stands c e s ∧ (c.step e).begun = s.begun := ⟨_, stands_step c e, rfl⟩
  rw [hq]
  cases hs with
  | quiet _ _ hn => exact hn
  | _ => exact Nat.le_refl _

theorem closed_step (c : Client) (e : Event) : (c.step e).closed = (c.closed || e.ends) := by
  obtain ⟨s, hs, hq⟩ : ∃ s, Stands c e s ∧ (c.step e).closed = s.closed := ⟨_, stands_step c e, rfl⟩
  rw [hq]
  cases hs with
  | quiet => rfl
  | idle hw _ =>
    rw [ends_of_writes hw, Bool.or_false]
    rfl
  | _ => simp [Event.ends, standing]

theorem shut_step (h : c.shut = true) (e : Event) : (c.step e).shut = true := by
  obtain ⟨s, hs, hq⟩ : ∃ s, Stands c e s ∧ (c.step e).shut = s.shut := ⟨_, stands_step c e, rfl⟩
  rw [hq]
  cases hs with
  | shut => rfl
  | _ => exact h

end Client

end ReqlDriver
