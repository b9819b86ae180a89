import ReqlDriver.Proofs.Connection.Origins
import ReqlDriver.Proofs.Connection.Routing

namespace ReqlDriver.Client

inductive Asks (c : Client) (id : Nat) (d : Client) : Prop
  | nothing : d.tasks = c.tasks → d.waiters = c.waiters → Asks c id d
  | unanswered {t : Task} : t.id = id → c.closed = false → d.tasks = c.tasks ++ [t] →
      d.waiters = c.waiters → Asks c id d
  | once {t : Task} {token : UInt64} : t.id = id → c.closed = false → d.tasks = c.tasks ++ [t] →
      d.waiters = { c.waiters with pending := (token, id) :: c.waiters.pending } → Asks c id d

def Tried (c : Client) (id : Nat) (token : UInt64) (d : Client) : Prop :=
  d.finished = c.finished ∨ ∃ o, d.finished = c.finished ++ [(id, o)] ∧
    ∀ e, o = .error e → c.waiters.register token id = .error e

inductive Removes (c : Client) (token : UInt64) : Event → Prop
  | answered {f : Frame} : f.token = token → Removes c token (.receive f)
  | ended {e : Event} : e.ends = true → Removes c token e
  | given {t : Task} {f : Frame} {e : Event} : t ∈ c.tasks → t.purpose.awaits = true →
      t.work = .frame f → f.token = token → e = .resume t.id ∨ e = .cancel t.id →
      Removes c token e
  | stopped {k : Cursor} : k ∈ c.cursors → k.token = token → Removes c token (.call (.stop token))
  | dropped : token ∈ c.stopping → Removes c token (.stopDropped token)

inductive Enters (c : Client) : Event → Nat → Prop
  | begins (call : Call) : Enters c (.call call) c.begun
  | resumes (id : Nat) : Enters c (.resume id) id

variable {c d : Client} {e : Event} {id : Nat} {k : Cursor} {t u : Task} {p : UInt64 × Nat}

theorem Asks.of_eq {b : Client} (h : Asks b id d) (ht : b.tasks = c.tasks)
    (hw : b.waiters = c.waiters) : Asks c id d := by
  cases h with
  | nothing hd he => exact .nothing (hd.trans ht) (he.trans hw)
  | unanswered hi hc hd he =>
    exact .unanswered hi (by rw [closed, ← hw]; exact hc) (ht ▸ hd) (he.trans hw)
  | once hi hc hd he => exact .once hi (by rw [closed, ← hw]; exact hc) (ht ▸ hd) (hw ▸ he)

theorem Asks.mem_tasks (h : Asks c id d) (ht : t ∈ c.tasks) : t ∈ d.tasks := by
  cases h with
  | nothing hd => exact hd ▸ ht
  | unanswered _ _ hd | once _ _ hd => exact hd ▸ List.mem_append_left _ ht

theorem Asks.mem_tasks_or (h : Asks c id d) (hu : u ∈ d.tasks) : u ∈ c.tasks ∨ u.id = id := by
  cases h with
  | nothing hd => exact .inl (hd ▸ hu)
  | unanswered hi _ hd | once hi _ hd =>
    rw [hd] at hu
    rcases List.mem_append.mp hu with hu | hu
    · exact .inl hu
    · obtain rfl := List.mem_singleton.mp hu
      exact .inr hi

theorem Asks.mem_pending (h : Asks c id d) (hp : p ∈ c.waiters.pending) :
    p ∈ d.waiters.pending := by
  cases h with
  | nothing _ he | unanswered _ _ _ he => exact he ▸ hp
  | once _ _ _ he => exact he ▸ List.mem_cons_of_mem _ hp

theorem Asks.mem_or (h : Asks c id d) (hp : p ∈ d.waiters.pending) :
    p ∈ c.waiters.pending ∨ p.2 = id := by
  cases h with
  | nothing _ he | unanswered _ _ _ he => exact .inl (he ▸ hp)
  | once _ _ _ he =>
    rw [he] at hp
    rcases List.mem_cons.mp hp with rfl | hp
    · exact .inr rfl
    · exact .inl hp

theorem Asks.tasks_of_closed (h : Asks c id d) (hc : c.closed = true) : d.tasks = c.tasks := by
  cases h with
  | nothing hd => exact hd
  | unanswered _ ho | once _ ho =>
    rw [hc] at ho
    cases ho

theorem asks_request {purpose : Purpose} {f : Frame} (h : c.request id purpose f = .ok d) :
    Asks c id d := by
  obtain ⟨hc, -, rfl⟩ := request_eq_ok_iff.mp h
  exact .once rfl hc rfl rfl

theorem asks_requestOrFail (c : Client) (id : Nat) (purpose : Purpose) (f : Frame) :
    Asks c id (c.requestOrFail id purpose f) := by
  unfold requestOrFail
  split
  · rename_i hr
    exact asks_request hr
  · exact .nothing rfl rfl

theorem asks_advance (c : Client) (id : Nat) (k : Cursor) : Asks c id (c.advance id k) := by
  unfold advance
  split
  · exact .nothing rfl rfl
  · exact .nothing rfl rfl
  · split
    · rename_i hr
      exact asks_request hr
    · exact .nothing rfl rfl

@[simp] theorem tasks_abandon (c : Client) (k : Cursor) : (c.abandon k).tasks = c.tasks := by
  unfold abandon
  split <;> rfl

@[simp] theorem waiters_abandon (c : Client) (k : Cursor) :
    (c.abandon k).waiters = c.waiters := by
  unfold abandon
  split <;> rfl

theorem asks_gather (c : Client) (id : Nat) (k : Cursor) (rows : List Datum) :
    Asks c id (c.gather id k rows) := by
  unfold gather
  dsimp only
  split
  · exact .nothing rfl rfl
  · split
    · rename_i hr
      exact asks_request hr
    · exact .nothing (tasks_abandon _ _) (waiters_abandon _ _)

theorem tried_requestOrFail (c : Client) (id : Nat) (purpose : Purpose) (f : Frame) :
    Tried c id f.token (c.requestOrFail id purpose f) := by
  unfold requestOrFail
  split
  · rename_i hr
    exact .inl (finished_request hr)
  · rename_i e hr
    refine .inr ⟨_, rfl, ?_⟩
    rintro _ ⟨⟩
    exact request_eq_error_iff.mp hr

theorem tried_advance (c : Client) (id : Nat) (k : Cursor) :
    Tried c id k.token (c.advance id k) := by
  unfold advance
  split
  · exact .inr ⟨_, rfl, by simp⟩
  · exact .inr ⟨_, rfl, by simp⟩
  · split
    · rename_i hr
      exact .inl (finished_request hr)
    · rename_i e hr
      refine .inr ⟨_, rfl, ?_⟩
      rintro _ ⟨⟩
      exact request_eq_error_iff.mp hr

theorem tried_gather (c : Client) (id : Nat) (k : Cursor) (rows : List Datum) :
    Tried c id k.token (c.gather id k rows) := by
  unfold gather
  dsimp only
  split
  · exact .inr ⟨_, rfl, by simp⟩
  · split
    · rename_i hr
      exact .inl (finished_request hr)
    · rename_i e hr
      refine .inr ⟨_, congrArg (· ++ _) (finished_abandon _ _), ?_⟩
      rintro _ ⟨⟩
      exact request_eq_error_iff.mp hr

theorem asks_finishRun (c : Client) (id : Nat) (r : Except Error Result) :
    Asks c id (c.finishRun id r) := by
  unfold finishRun
  split <;> exact .nothing rfl rfl

theorem asks_proceed (c : Client) (id : Nat) (purpose : Purpose) (token : UInt64) (a : Answer) :
    Asks c id (c.proceed id purpose token a) := by
  unfold proceed
  split
  · exact asks_finishRun _ _ _
  · exact .nothing rfl rfl
  · exact .nothing rfl rfl
  · split
    · exact .nothing rfl rfl
    · exact asks_advance _ _ _
  · split
    · exact .nothing (tasks_abandon _ _) (waiters_abandon _ _)
    · exact asks_gather _ _ _ _
  · exact .nothing rfl rfl

theorem tasks_dismiss (c : Client) (t : Task) :
    (c.dismiss t).tasks = c.tasks.filter fun u => u.id != t.id := by
  unfold dismiss
  split <;> rfl

theorem mem_tasks_dismiss : u ∈ (c.dismiss t).tasks ↔ u ∈ c.tasks ∧ u.id ≠ t.id := by
  simp [tasks_dismiss]

theorem pending_dismiss (c : Client) (t : Task) :
    (c.dismiss t).waiters.pending.Sublist c.waiters.pending := by
  unfold dismiss
  split
  · exact List.filter_sublist
  · exact List.Sublist.refl _

theorem mem_pending_dismiss (hp : p ∈ c.waiters.pending) : p ∈ (c.dismiss t).waiters.pending ∨
    t.purpose.awaits = true ∧ ∃ f, t.work = .frame f ∧ f.token = p.1 := by
  unfold dismiss
  split
  · rename_i f ha hf
    by_cases ht : f.token = p.1
    · exact .inr ⟨ha, f, hf, ht⟩
    · refine .inl (List.mem_filter.mpr ⟨hp, ?_⟩)
      simpa using Ne.symm ht
  · exact .inl hp

theorem asks_refuse (c : Client) (t : Task) : Asks (c.dismiss t) t.id (c.refuse t) := by
  unfold refuse
  dsimp only
  split
  · exact .nothing rfl rfl
  · exact .nothing rfl rfl
  · exact .nothing (tasks_abandon _ _) (waiters_abandon _ _)
  all_goals exact .nothing rfl rfl

theorem asks_complete (c : Client) (t : Task) : Asks (c.dismiss t) t.id (c.complete t) := by
  unfold complete
  dsimp only
  split <;> exact .nothing rfl rfl

theorem resume_asks (c : Client) (id : Nat) : c.resume id = c ∨
    ∃ t, c.task? id = some t ∧ (t.phase = .written ∨ t.phase = .refused) ∧
      Asks (c.dismiss t) id (c.resume id) := by
  unfold resume
  cases ht : c.task? id with
  | none => exact .inl rfl
  | some t =>
    obtain ⟨-, rfl⟩ := mem_of_task? ht
    dsimp only
    split
    · rename_i hp
      exact .inr ⟨t, rfl, by simp [hp], asks_refuse _ _⟩
    · rename_i hp _
      exact .inr ⟨t, rfl, by simp [hp], asks_complete _ _⟩
    · rename_i hp _ _ _
      exact .inr ⟨t, rfl, by simp [hp], asks_proceed _ _ _ _ _⟩
    · exact .inl rfl

theorem cancel_asks (c : Client) (id : Nat) : c.cancel id = c ∨
    ∃ t, c.task? id = some t ∧ (c.cancel id).tasks = (c.dismiss t).tasks ∧
      (c.cancel id).waiters = (c.dismiss t).waiters := by
  unfold cancel
  cases ht : c.task? id with
  | none => exact .inl rfl
  | some t =>
    dsimp only
    split
    · exact .inr ⟨t, rfl, rfl, rfl⟩
    · exact .inr ⟨t, rfl, rfl, rfl⟩
    · exact .inr ⟨t, rfl, tasks_abandon _ _, waiters_abandon _ _⟩
    · exact .inl rfl
    · exact .inr ⟨t, rfl, rfl, rfl⟩

def without (c : Client) (token : UInt64) : Client :=
  { c with waiters := c.waiters.remove token }

theorem mem_pending_without {token : UInt64} :
    p ∈ (c.without token).waiters.pending ↔ p ∈ c.waiters.pending ∧ p.1 ≠ token := by
  simp [without, Waiters.remove]

theorem call_asks (c : Client) (call : Call) : call = .close ∨ Asks c c.begun (c.call call) ∨
    ∃ k ∈ c.cursors, call = .stop k.token ∧
      Asks (c.without k.token) c.begun (c.call call) := by
  have hn : Asks c c.begun c := .nothing rfl rfl
  let d : Client := { c with begun := c.begun + 1 }
  cases call with
  | run q o =>
    have hr : c.call (.run q o) = d.beginRun c.begun q o := rfl
    rw [hr]
    cases hc : c.closed with
    | true =>
      rw [beginRun_closed (c := d) hc]
      exact .inr (.inl (.nothing rfl rfl))
    | false =>
      cases ho : o.noreply with
      | true =>
        rw [beginRun_noreply (c := d) hc q ho]
        exact .inr (.inl (.unanswered rfl hc rfl rfl))
      | false =>
        rw [beginRun_request (c := d) hc q ho]
        exact .inr (.inl ((asks_requestOrFail _ _ _ _).of_eq rfl rfl))
  | noreplyWait => exact .inr (.inl ((asks_requestOrFail _ _ _ _).of_eq rfl rfl))
  | serverInfo => exact .inr (.inl ((asks_requestOrFail _ _ _ _).of_eq rfl rfl))
  | next token =>
    cases hk : c.cursor? token with
    | none => exact .inr (.inl (by simpa [Client.call, hk] using hn))
    | some k =>
      rw [call_next hk]
      exact .inr (.inl ((asks_advance _ _ _).of_eq rfl rfl))
  | collect token =>
    cases hk : c.cursor? token with
    | none => exact .inr (.inl (by simpa [Client.call, hk] using hn))
    | some k =>
      rw [call_collect hk]
      exact .inr (.inl ((asks_gather _ _ _ _).of_eq rfl rfl))
  | stop token =>
    cases hk : c.cursor? token with
    | none => exact .inr (.inl (by simpa [Client.call, hk] using hn))
    | some k =>
      obtain rfl := token_of_cursor? hk
      rw [call_stop hk]
      cases he : k.exhausted with
      | true =>
        rw [beginStop_exhausted _ _ he]
        exact .inr (.inl (.nothing rfl rfl))
      | false =>
        refine .inr (.inr ⟨k, mem_of_cursor? hk, rfl, ?_⟩)
        cases hc : c.closed with
        | true =>
          rw [beginStop_closed (c := d.take k.token) hc _ he]
          exact .nothing rfl rfl
        | false =>
          rw [beginStop_tell (c := d.take k.token) hc _ he]
          exact .unanswered rfl hc rfl rfl
  | close => exact .inl rfl

theorem waiters_stopDropped {token : UInt64} (ht : token ∈ c.stopping) :
    (c.stopDropped token).waiters = c.waiters.remove token := by
  cases hc : c.closed with
  | true => rw [stopDropped_closed hc ht]
  | false =>
    rw [stopDropped_tell hc ht]
    rfl

theorem waiters_endOfStream (c : Client) :
    c.endOfStream.waiters = { pending := [], closed := true } := by
  rw [endOfStream_eq]
  rfl

theorem waiters_enqueue (c : Client) (id : Nat) : (c.enqueue id).waiters = c.waiters := by
  unfold enqueue
  split
  · rfl
  · split
    · rfl
    · split
      · rfl
      · split <;> rfl

theorem waiters_write (c : Client) : c.write.waiters = c.waiters := by
  unfold write
  split <;> rfl

theorem waiters_failWrite (c : Client) (fault : WriteFault) :
    (c.failWrite fault).waiters = c.waiters := by
  unfold failWrite
  split <;> rfl

theorem waiters_receive (c : Client) (f : Frame) :
    (c.receive f).waiters = (c.waiters.dispatch f).2 := waiters_answerAll _ _

@[simp] theorem tasks_dropCursor (c : Client) (token : UInt64) :
    (c.dropCursor token).tasks = c.tasks := by
  unfold dropCursor
  split
  · rfl
  · exact tasks_abandon _ _

@[simp] theorem waiters_dropCursor (c : Client) (token : UInt64) :
    (c.dropCursor token).waiters = c.waiters := by
  unfold dropCursor
  split
  · rfl
  · exact waiters_abandon _ _

theorem mem_pending_receive {f : Frame} (hp : p ∈ c.waiters.pending) (hf : f.token ≠ p.1) :
    p ∈ (c.receive f).waiters.pending := by
  rw [waiters_receive]
  unfold Waiters.dispatch
  cases c.waiters.get? f.token with
  | none => exact hp
  | some id => exact mem_pending_without.mpr ⟨hp, hf.symm⟩

theorem pending_receive (c : Client) (f : Frame) :
    (c.receive f).waiters.pending.Sublist c.waiters.pending := by
  rw [waiters_receive]
  unfold Waiters.dispatch
  cases c.waiters.get? f.token with
  | none => exact List.Sublist.refl _
  | some id => exact List.filter_sublist

theorem waiters_beginClose (c : Client) (id : Nat) : (c.beginClose id).waiters = c.waiters ∨
    (c.beginClose id).waiters = { pending := [], closed := true } := by
  unfold beginClose
  split
  · exact .inl rfl
  · exact .inr (waiters_endOfStream c)

theorem entered_step (hp : p ∈ (c.step e).waiters.pending) :
    p ∈ c.waiters.pending ∨ Enters c e p.2 := by
  have hasks {d : Client} {id : Nat} (ha : Asks d id (c.step e))
      (hd : p ∈ d.waiters.pending → p ∈ c.waiters.pending) (he : Enters c e id) :
      p ∈ c.waiters.pending ∨ Enters c e p.2 := by
    rcases ha.mem_or hp with hp | rfl
    · exact .inl (hd hp)
    · exact .inr he
  cases e with
  | call call =>
    rcases call_asks c call with rfl | ha | ⟨k, -, -, ha⟩
    · rcases waiters_beginClose { c with begun := c.begun + 1 } c.begun with hw | hw
      · exact .inl (hw ▸ hp)
      · rw [step, Client.call, hw] at hp
        cases hp
    · exact hasks ha id (.begins _)
    · exact hasks ha (fun hp => (mem_pending_without.mp hp).1) (.begins _)
  | dropCursor token => exact .inl (by simpa [step] using hp)
  | useDb name => exact .inl hp
  | cancel id =>
    rcases cancel_asks c id with hc | ⟨t, -, -, hw⟩
    · exact .inl (by simpa [step, hc] using hp)
    · rw [step, hw] at hp
      exact .inl ((pending_dismiss c t).subset hp)
  | stopDropped token =>
    by_cases ht : token ∈ c.stopping
    · rw [step, waiters_stopDropped ht] at hp
      exact .inl (mem_pending_without.mp hp).1
    · exact .inl (by simpa [step, Client.stopDropped, ht] using hp)
  | enqueue id => exact .inl (by rwa [step, waiters_enqueue] at hp)
  | write => exact .inl (by rwa [step, waiters_write] at hp)
  | failWrite fault => exact .inl (by rwa [step, waiters_failWrite] at hp)
  | receive f => exact .inl ((pending_receive c f).subset hp)
  | endOfStream =>
    rw [step, waiters_endOfStream] at hp
    cases hp
  | resume id =>
    rcases resume_asks c id with hc | ⟨t, -, -, ha⟩
    · exact .inl (by simpa [step, hc] using hp)
    · exact hasks ha (fun hp => (pending_dismiss c t).subset hp) (.resumes id)

theorem left_step (hp : p ∈ c.waiters.pending) :
    p ∈ (c.step e).waiters.pending ∨ Removes c p.1 e := by
  cases e with
  | call call =>
    rcases call_asks c call with rfl | ha | ⟨k, hk, rfl, ha⟩
    · exact .inr (.ended rfl)
    · exact .inl (ha.mem_pending hp)
    · by_cases hpt : k.token = p.1
      · exact .inr (hpt ▸ .stopped hk rfl)
      · exact .inl (ha.mem_pending (mem_pending_without.mpr ⟨hp, Ne.symm hpt⟩))
  | dropCursor token => exact .inl (by simpa [step] using hp)
  | useDb name => exact .inl hp
  | cancel id =>
    rcases cancel_asks c id with hc | ⟨t, ht, -, hw⟩
    · exact .inl (by rwa [step, hc])
    · obtain ⟨hm, rfl⟩ := mem_of_task? ht
      rw [step, hw]
      refine (mem_pending_dismiss hp).imp_right ?_
      rintro ⟨ha, f, hf, hft⟩
      exact .given hm ha hf hft (.inr rfl)
  | stopDropped token =>
    by_cases ht : token ∈ c.stopping
    · by_cases hpt : p.1 = token
      · subst hpt
        exact .inr (.dropped ht)
      · rw [step, waiters_stopDropped ht]
        exact .inl (mem_pending_without.mpr ⟨hp, hpt⟩)
    · exact .inl (by simpa [step, Client.stopDropped, ht] using hp)
  | enqueue id => exact .inl (by rwa [step, waiters_enqueue])
  | write => exact .inl (by rwa [step, waiters_write])
  | failWrite fault => exact .inl (by rwa [step, waiters_failWrite])
  | receive f =>
    by_cases hf : f.token = p.1
    · exact .inr (.answered hf)
    · exact .inl (mem_pending_receive hp hf)
  | endOfStream => exact .inr (.ended rfl)
  | resume id =>
    rcases resume_asks c id with hc | ⟨t, ht, -, ha⟩
    · exact .inl (by rwa [step, hc])
    · obtain ⟨hm, rfl⟩ := mem_of_task? ht
      rcases mem_pending_dismiss hp with hd | ⟨haw, f, hf, hft⟩
      · exact .inl (ha.mem_pending hd)
      · exact .inr (.given hm haw hf hft (.inl rfl))

theorem Turn.kept (h : Turn c e) (ht : t ∈ c.tasks) (hc : e ≠ .cancel t.id)
    (hr : e ≠ .resume t.id) : ∃ u ∈ (c.step e).tasks, Marked c e t u := by
  have hm := task_mem_holders.mpr ht
  cases h with
  | stays g begins hg _ hs =>
    refine ⟨g t, task_mem_holders.mp ?_, hg t ht⟩
    rw [hs]
    exact Multiset.mem_add.mpr (.inr (Multiset.mem_map.mpr ⟨_, hm, rfl⟩))
  | passes hp hh hs =>
    refine ⟨t, task_mem_holders.mp ?_, .other hp.enqueues t⟩
    rw [hs]
    rw [hh] at hm
    rcases Multiset.mem_cons.mp hm with rfl | hm
    · cases hp with
      | cancel => exact absurd rfl hc
      | refuse | complete | conclude => exact absurd rfl hr
    · exact Multiset.mem_add.mpr (.inr hm)

/-- What an event does to the tasks: it turns the holders, a call may ask for something under its
number, or a task is given up or resumed. -/
inductive Shifts (c : Client) : Event → Prop
  | turn {e : Event} : Turn c e → Shifts c e
  | asks {e : Event} {d : Client} : e.enqueues = false → d.tasks = c.tasks →
      d.closed = c.closed → Asks d c.begun (c.step e) → Shifts c e
  | cancelled {t : Task} : t ∈ c.tasks → (c.cancel t.id).tasks = (c.dismiss t).tasks →
      Shifts c (.cancel t.id)
  | resumed {t : Task} : t ∈ c.tasks → t.phase = .written ∨ t.phase = .refused →
      Asks (c.dismiss t) t.id (c.resume t.id) → Shifts c (.resume t.id)

theorem Orderly.shifts (h : Orderly c) (e : Event) : Shifts c e := by
  have hsame (he : e.enqueues = false) (hn : e.ends = false)
      (ht : (c.step e).tasks = c.tasks) : Shifts c e := by
    refine .asks he ht ?_ (.nothing rfl rfl)
    rw [closed_step, hn, Bool.or_false]
  cases e with
  | call call =>
    rcases call_asks c call with rfl | ha | ⟨k, -, -, ha⟩
    · exact .turn (turn_close c)
    · exact .asks rfl rfl rfl ha
    · exact .asks (d := c.without k.token) rfl rfl rfl ha
  | dropCursor token => exact hsame rfl rfl (tasks_dropCursor c token)
  | useDb name => exact hsame rfl rfl rfl
  | cancel id =>
    rcases cancel_asks c id with hi | ⟨t, ht, hd, -⟩
    · exact hsame rfl rfl (congrArg Client.tasks hi)
    · obtain ⟨hm, rfl⟩ := mem_of_task? ht
      exact .cancelled hm hd
  | stopDropped token => exact .turn (turn_stopDropped c token)
  | enqueue id => exact .turn (turn_enqueue h id)
  | write => exact .turn (turn_write c)
  | failWrite fault => exact .turn (turn_failWrite c fault)
  | receive f => exact .turn (turn_receive c f)
  | endOfStream => exact .turn (turn_endOfStream c)
  | resume id =>
    rcases resume_asks c id with hi | ⟨t, ht, hp, ha⟩
    · exact hsame rfl rfl (congrArg Client.tasks hi)
    · obtain ⟨hm, rfl⟩ := mem_of_task? ht
      exact .resumed hm hp ha

theorem Orderly.kept_step (h : Orderly c) (ht : t ∈ c.tasks) (hc : e ≠ .cancel t.id)
    (hr : e ≠ .resume t.id) : ∃ u ∈ (c.step e).tasks, Marked c e t u := by
  cases h.shifts e with
  | turn hturn => exact hturn.kept ht hc hr
  | asks he hd _ ha => exact ⟨t, ha.mem_tasks (hd ▸ ht), .other he t⟩
  | @cancelled u _ hd =>
    have hne : t.id ≠ u.id := fun hi => hc (hi ▸ rfl)
    refine ⟨t, ?_, .other rfl t⟩
    rw [Client.step, hd]
    exact mem_tasks_dismiss.mpr ⟨ht, hne⟩
  | @resumed u _ _ ha =>
    have hne : t.id ≠ u.id := fun hi => hr (hi ▸ rfl)
    exact ⟨t, ha.mem_tasks (mem_tasks_dismiss.mpr ⟨ht, hne⟩), .other rfl t⟩

theorem Orderly.origin (h : Orderly c) (hu : u ∈ (c.step e).tasks) :
    (∃ t ∈ c.tasks, Marked c e t u) ∨ u.id = c.begun ∨
      ∃ t ∈ c.tasks, (t.phase = .written ∨ t.phase = .refused) ∧ u.id = t.id := by
  cases h.shifts e with
  | turn hturn =>
    rcases hturn.origin hu with hm | hf | ⟨t, ht, hp, hf⟩
    · exact .inl hm
    · exact .inr (.inl hf.id)
    · exact .inr (.inr ⟨t, ht, .inl hp, hf.id⟩)
  | asks he hd _ ha =>
    rcases ha.mem_tasks_or hu with hm | hi
    · exact .inl ⟨u, hd ▸ hm, .other he u⟩
    · exact .inr (.inl hi)
  | cancelled _ hd =>
    rw [Client.step, hd] at hu
    exact .inl ⟨u, (mem_tasks_dismiss.mp hu).1, .other rfl u⟩
  | @resumed t ht hp ha =>
    rcases ha.mem_tasks_or hu with hm | hi
    · exact .inl ⟨u, (mem_tasks_dismiss.mp hm).1, .other rfl u⟩
    · exact .inr (.inr ⟨t, ht, hp, hi⟩)

end ReqlDriver.Client
