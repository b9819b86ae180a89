import ReqlDriver.Proofs.Connection.Exhaustion
import ReqlDriver.Proofs.Connection.Table

namespace ReqlDriver

namespace Cursor

def past (k : Cursor) (n : Nat) : Cursor := { k with buffer := k.buffer.drop n }

def ending (k : Cursor) (o : Outcome) : Except Error Outcome :=
  if k.exhausted then .ok o else .error .connectionClosed

def nth (k : Cursor) (n : Nat) : Except Error Outcome :=
  match k.buffer[n]? with
  | some d => .ok (.row (some d))
  | none => k.ending (.row none)

theorem past_past (k : Cursor) (m n : Nat) : (k.past m).past n = k.past (m + n) := by
  simp [past, List.drop_drop]

theorem nth_past (k : Cursor) (m n : Nat) : (k.past m).nth n = k.nth (m + n) := by
  have hn : (k.past m).buffer[n]? = k.buffer[m + n]? := List.getElem?_drop
  rw [nth, hn]
  rfl

end Cursor

structure Task.Apart (t : Task) (token : UInt64) : Prop where
  frame : ∀ f, t.work = .frame f → f.token ≠ token
  cursor : ∀ k, t.purpose.cursor? = some k → k.token ≠ token

namespace Client

def Event.isNext (token : UInt64) : Event → Bool
  | .call (.next other) => other == token
  | _ => false

def Event.claims (token : UInt64) : Event → Bool
  | .call (.collect other) => other == token
  | .call (.stop other) => other == token
  | .dropCursor other => other == token
  | _ => false

inductive Claims (token : UInt64) (c : Client) : Event → Prop
  | caller {e : Event} : e.claims token = true → Claims token c e
  | resume {t : Task} : t ∈ c.tasks → ¬ t.Apart token → Claims token c (.resume t.id)
  | cancel {t : Task} : t ∈ c.tasks → ¬ t.Apart token → Claims token c (.cancel t.id)

variable {c : Client} {e : Event} {id : Nat} {k : Cursor} {t u : Task} {o : Option Holder}
  {token other : UInt64}

theorem request_closed (hc : c.closed = true) (id : Nat) (purpose : Purpose) (f : Frame) :
    c.request id purpose f = .error .connectionClosed := by
  have hw : c.waiters.closed = true := hc
  simp [request, Waiters.register, hw, Except.map]

theorem requestOrFail_closed (hc : c.closed = true) (id : Nat) (purpose : Purpose) (f : Frame) :
    c.requestOrFail id purpose f = c.finish id (.error .connectionClosed) := by
  simp only [requestOrFail, request_closed hc]

theorem advance_closed (hc : c.closed = true) (id : Nat) (k : Cursor) :
    c.advance id k = (c.hold (k.past 1)).finish id (k.nth 0) := by
  cases hb : k.buffer with
  | cons d r =>
    rw [advance_row c id hb]
    simp [Cursor.past, Cursor.nth, hb]
  | nil =>
    have hk : k.past 1 = k := by
      cases k
      simp_all [Cursor.past]
    rcases Bool.eq_false_or_eq_true k.exhausted with he | he
    · rw [advance_ended c id hb he]
      simp [Cursor.nth, Cursor.ending, hb, he, hk]
    · rw [advance_refused c id hb he (request_closed hc _ _ _)]
      simp [Cursor.nth, Cursor.ending, hb, he, hk]

theorem gather_closed (hc : c.closed = true) (id : Nat) (k : Cursor) (rows : List Datum) :
    c.gather id k rows =
      (c.abandon { k with buffer := [] }).finish id (k.ending (.rows (rows ++ k.buffer))) := by
  rcases Bool.eq_false_or_eq_true k.exhausted with he | he
  · rw [gather_ended c id rows he, abandon, if_pos he, Cursor.ending, if_pos he]
  · rw [gather_refused c id rows he (request_closed hc _ _ _)]
    simp [Cursor.ending, he]

theorem call_next_closed (hc : c.closed = true) (hk : c.cursor? token = some k) :
    c.call (.next token) =
      (({ c with begun := c.begun + 1 }.take token).hold (k.past 1)).finish c.begun (k.nth 0) := by
  rw [call_next hk]
  exact advance_closed (c := { c with begun := c.begun + 1 }.take token) hc _ _

theorem call_close_closed (hc : c.closed = true) :
    c.call .close = { c with begun := c.begun + 1 }.finish c.begun (.ok .done) := by
  have hd : { c with begun := c.begun + 1 }.closed = true := hc
  simp only [Client.call, beginClose, hd, if_true]

theorem call_collect_closed (hc : c.closed = true) (hk : c.cursor? token = some k) :
    c.call (.collect token) = (({ c with begun := c.begun + 1 }.take token).abandon
      { k with buffer := [] }).finish c.begun (k.ending (.rows k.buffer)) := by
  rw [call_collect hk]
  exact gather_closed (c := { c with begun := c.begun + 1 }.take token) hc _ _ _

theorem call_stop_closed (hc : c.closed = true) (hk : c.cursor? token = some k) :
    ∃ w : Waiters, c.call (.stop token) =
      (({ c with begun := c.begun + 1, waiters := w }.take token).hold k.stopped).finish c.begun
        (.ok .done) := by
  rw [call_stop hk]
  rcases Bool.eq_false_or_eq_true k.exhausted with he | he
  · exact ⟨c.waiters, beginStop_exhausted _ _ he⟩
  · exact ⟨_, beginStop_closed (c := { c with begun := c.begun + 1 }.take token) hc _ he⟩

theorem returns_run (hc : c.closed = true) (q : Term) (o : Options) :
    c.Returns (.run q o) (.error .connectionClosed) :=
  .of_finish (beginRun_closed (c := { c with begun := c.begun + 1 }) hc q o) rfl rfl rfl

theorem call_control_closed (hc : c.closed = true) (purpose : Purpose) (type : QueryType) :
    { c with begun := c.begun + 1 }.beginControl c.begun purpose type =
      { c with begun := c.begun + 1, issued := c.issued + 1 }.finish c.begun
        (.error .connectionClosed) :=
  requestOrFail_closed (c := { c with begun := c.begun + 1, issued := c.issued + 1 }) hc _ _ _

theorem returns_noreplyWait (hc : c.closed = true) :
    c.Returns .noreplyWait (.error .connectionClosed) :=
  .of_finish (call_control_closed hc _ _) rfl rfl rfl

theorem returns_serverInfo (hc : c.closed = true) :
    c.Returns .serverInfo (.error .connectionClosed) :=
  .of_finish (call_control_closed hc _ _) rfl rfl rfl

theorem returns_close (hc : c.closed = true) : c.Returns .close (.ok .done) :=
  .of_finish (call_close_closed hc) rfl rfl rfl

theorem returns_next (hc : c.closed = true) (hk : c.cursor? token = some k) :
    c.Returns (.next token) (k.nth 0) :=
  .of_finish (call_next_closed hc hk) rfl rfl rfl

theorem returns_collect (hc : c.closed = true) (hk : c.cursor? token = some k) :
    c.Returns (.collect token) (k.ending (.rows k.buffer)) :=
  .of_finish (call_collect_closed hc hk) (finished_abandon _ _) (tasks_abandon _ _)
    (congrArg Standing.queue (standing_abandon _ _))

theorem returns_stop_closed (hc : c.closed = true) (hk : c.cursor? token = some k) :
    c.Returns (.stop token) (.ok .done) := by
  obtain ⟨w, hs⟩ := call_stop_closed hc hk
  exact .of_finish hs rfl rfl rfl

theorem Advanced.ne_task {j : Holder} (h : Advanced true id k j) : j ≠ .task u := by
  rintro rfl
  cases h with
  | asked _ _ hn => cases hn

theorem Gathered.ne_task {rows : List Datum} (h : Gathered true id k rows o) :
    o ≠ some (.task u) := by
  rintro rfl
  cases h with
  | asked _ hn => cases hn

theorem Passes.ne_task {j : Holder} (h : Passes c e j o) (hc : c.closed = true) :
    o ≠ some (.task u) := by
  cases h with
  | next ha =>
    rw [hc] at ha
    exact fun hj => ha.ne_task (Option.some.inj hj)
  | collect hg =>
    rw [hc] at hg
    exact hg.ne_task
  | stopped | forget => simp
  | stop _ hn | tell hn =>
    rw [hc] at hn
    cases hn
  | drop => exact remains_ne_task
  | cancel | refuse | complete => exact leaves_ne_task
  | conclude _ _ _ hd =>
    rw [hc] at hd
    cases hd with
    | started | failedNext => simp
    | ended => simp
    | next _ _ ha => exact fun hj => ha.ne_task (Option.some.inj hj)
    | failedCollect => exact remains_ne_task
    | collect _ _ hg => exact hg.ne_task

theorem Turn.marked_closed (h : Turn c e) (hc : c.closed = true) (he : e ≠ .call .close)
    (hu : u ∈ (c.step e).tasks) : ∃ t ∈ c.tasks, Marked c e t u := by
  rcases h.source hu with hm | hb | ⟨j, -, hp⟩
  · exact hm
  · cases hb with
    | run hn | silent hn | noreplyWait hn | serverInfo hn =>
      rw [hc] at hn
      cases hn
    | close => exact absurd rfl he
  · exact absurd rfl (hp.ne_task hc)

theorem Orderly.marked_closed (h : Orderly c) (hc : c.closed = true)
    (hu : u ∈ (c.step e).tasks) : ∃ t ∈ c.tasks, Marked c e t u := by
  by_cases hclose : e = .call .close
  · subst hclose
    exact ⟨u, (returns_close hc).tasks ▸ hu, .other rfl u⟩
  cases h.shifts e with
  | turn ht => exact ht.marked_closed hc hclose hu
  | asks he hd hdc ha =>
    rw [ha.tasks_of_closed (hdc.trans hc), hd] at hu
    exact ⟨u, hu, .other he u⟩
  | cancelled _ hd =>
    rw [Client.step, hd] at hu
    exact ⟨u, (mem_tasks_dismiss.mp hu).1, .other rfl u⟩
  | @resumed t _ _ ha =>
    rw [Client.step, ha.tasks_of_closed ((closed_dismiss c t).trans hc)] at hu
    exact ⟨u, (mem_tasks_dismiss.mp hu).1, .other rfl u⟩

structure Sealed (n : Nat) (c : Client) : Prop where
  orderly : Orderly c
  closed : c.closed = true
  tasks : ∀ t ∈ c.tasks, t.id < n

theorem Sealed.step {n : Nat} (h : Sealed n c) (e : Event) : Sealed n (c.step e) where
  orderly := h.orderly.step e
  closed := by rw [closed_step, h.closed, Bool.true_or]
  tasks := by
    intro u hu
    obtain ⟨t, ht, hm⟩ := h.orderly.marked_closed h.closed hu
    exact hm.id_eq ▸ h.tasks t ht

theorem Sealed.after {n : Nat} (h : Sealed n c) (events : List Event) :
    Sealed n (c.after events) := by
  induction events generalizing c with
  | nil => exact h
  | cons e r ih => exact ih (h.step e)

theorem Sealed.queues {n : Nat} (h : Sealed n c) (hq : c.queues e ≠ []) :
    ∃ id < n, e = .enqueue id := by
  by_contra hn
  refine hq (queues_eq_nil ?_)
  rintro ⟨t, rfl, ht, -⟩
  exact hn ⟨t.id, h.tasks t (mem_of_task? ht).1, rfl⟩

@[simp] theorem cursor?_finish (c : Client) (id : Nat) (outcome : Except Error Outcome)
    (token : UInt64) : (c.finish id outcome).cursor? token = c.cursor? token := rfl

@[simp] theorem cursor?_abandon (c : Client) (k : Cursor) (token : UInt64) :
    (c.abandon k).cursor? token = c.cursor? token := by
  unfold abandon
  split <;> rfl

@[simp] theorem cursor?_dismiss (c : Client) (t : Task) (token : UInt64) :
    (c.dismiss t).cursor? token = c.cursor? token := by
  unfold dismiss
  split <;> rfl

theorem cursor?_hold_ne (c : Client) (h : k.token ≠ token) :
    (c.hold k).cursor? token = c.cursor? token := by
  simp [cursor?, hold, h]

theorem cursor?_take_ne (c : Client) (h : other ≠ token) :
    (c.take other).cursor? token = c.cursor? token := by
  unfold cursor? take
  induction c.cursors with
  | nil => rfl
  | cons k r ih =>
    by_cases hk : k.token = other
    · simp [hk, ih, h]
    · simp [hk, ih, List.find?_cons]

theorem cursor?_call_closed (hc : c.closed = true) (hk : c.cursor? token = some k) {call : Call}
    (hn : ¬ Claims token c (.call call)) : (c.call call).cursor? token =
      some (if (Event.call call).isNext token then k.past 1 else k) := by
  have htake {other : UInt64} (ho : other ≠ token) {d : Client} (hd : d.cursors = c.cursors) :
      (d.take other).cursor? token = some k := by
    rw [cursor?_take_ne d ho, cursor?, hd]
    exact hk
  have hhold {other : UInt64} (ho : other ≠ token) {d : Client} (hd : d.cursors = c.cursors)
      {j : Cursor} (hj : j.token = other) : ((d.take other).hold j).cursor? token = some k := by
    rw [cursor?_hold_ne _ (hj.trans_ne ho), htake ho hd]
  cases call with
  | run q o =>
    let d : Client := { c with begun := c.begun + 1 }
    have hs : c.call (.run q o) = d.beginRun c.begun q o := rfl
    rw [hs, beginRun_closed (c := d) hc]
    exact hk
  | noreplyWait | serverInfo =>
    simp only [Client.call, call_control_closed hc]
    exact hk
  | close =>
    rw [call_close_closed hc]
    exact hk
  | next other =>
    by_cases ho : other = token
    · subst ho
      rw [call_next_closed hc hk, cursor?_finish]
      obtain rfl := token_of_cursor? hk
      have hi : (Event.call (.next k.token)).isNext k.token = true := beq_self_eq_true _
      rw [hi, if_pos rfl]
      exact cursor?_hold _ (k.past 1)
    · have hi : (Event.call (.next other)).isNext token = false := by simpa [Event.isNext] using ho
      rw [hi, if_neg Bool.false_ne_true]
      cases hj : c.cursor? other with
      | none => simpa [Client.call, hj] using hk
      | some j =>
        have ht := token_of_cursor? hj
        rw [call_next_closed hc hj, cursor?_finish]
        exact hhold ho rfl ht
  | collect other =>
    have ho : other ≠ token := by
      rintro rfl
      exact hn (.caller (beq_self_eq_true _))
    cases hj : c.cursor? other with
    | none => simpa [Client.call, hj, Event.isNext] using hk
    | some j =>
      rw [call_collect_closed hc hj, cursor?_finish, cursor?_abandon]
      exact htake ho rfl
  | stop other =>
    have ho : other ≠ token := by
      rintro rfl
      exact hn (.caller (beq_self_eq_true _))
    cases hj : c.cursor? other with
    | none => simpa [Client.call, hj, Event.isNext] using hk
    | some j =>
      obtain ⟨w, hs⟩ := call_stop_closed hc hj
      have ht := token_of_cursor? hj
      rw [hs, cursor?_finish]
      exact hhold ho rfl ht

theorem cursor?_cancel (ha : ∀ t ∈ c.tasks, t.id = id → t.Apart token) :
    (c.cancel id).cursor? token = c.cursor? token := by
  unfold Client.cancel
  cases ht : c.task? id with
  | none => rfl
  | some t =>
    obtain ⟨hm, hi⟩ := mem_of_task? ht
    have hp := (ha t hm hi).cursor
    dsimp only
    split
    · rename_i k hk
      rw [cursor?_hold_ne _ (hp k (by rw [hk]; rfl)), cursor?_dismiss]
    · rename_i k hk
      rw [cursor?_hold_ne _ (hp k (by rw [hk]; rfl)), cursor?_dismiss]
    · simp
    · rfl
    · simp

theorem cursor?_proceed (hc : c.closed = true) (ht : t.Apart token) {f : Frame}
    (hf : t.work = .frame f) (a : Answer) :
    (c.proceed t.id t.purpose f.token a).cursor? token = c.cursor? token := by
  have hp := ht.cursor
  unfold proceed
  cases hu : t.purpose with
  | run =>
    dsimp only
    unfold finishRun
    split
    · rename_i k hr
      rw [cursor?_finish, cursor?_hold_ne]
      exact fun hk => ht.frame f hf (token_of_result hr ▸ hk)
    · simp
    · simp
  | next k =>
    have hk : k.token ≠ token := hp k (by rw [hu]; rfl)
    rcases hr : k.receive a with ⟨j, _ | e⟩
    · have hj : (j.past 1).token ≠ token := (token_of_receive hr).trans_ne hk
      simp only [hr, advance_closed hc, cursor?_finish, cursor?_hold_ne _ hj]
    · have hj : j.token ≠ token := (token_of_receive hr).trans_ne hk
      simp only [hr, cursor?_finish, cursor?_hold_ne _ hj]
  | collect k rows =>
    rcases hr : k.receive a with ⟨j, _ | e⟩
    · simp only [hr, gather_closed hc, cursor?_finish, cursor?_abandon]
    · simp only [hr, cursor?_finish, cursor?_abandon]
  | noreplyWait | serverInfo | silent | stop | abandon | close => simp

theorem cursor?_resume (hc : c.closed = true) (ha : ∀ t ∈ c.tasks, t.id = id → t.Apart token) :
    (c.resume id).cursor? token = c.cursor? token := by
  unfold Client.resume
  cases ht : c.task? id with
  | none => rfl
  | some t =>
    obtain ⟨hm, hi⟩ := mem_of_task? ht
    have hu := ha t hm hi
    have hh {k : Cursor} (hk : t.purpose.cursor? = some k) : k.token ≠ token := hu.cursor k hk
    dsimp only
    split
    · unfold refuse
      dsimp only
      split
      · rename_i k hk
        rw [cursor?_finish, cursor?_hold_ne _ (hh (by rw [hk]; rfl)), cursor?_dismiss]
      · rename_i k hk
        rw [cursor?_finish, cursor?_hold_ne _ (hh (by rw [hk]; rfl)), cursor?_dismiss]
      all_goals simp
    · unfold complete
      dsimp only
      split
      · simp
      · rename_i k hk
        rw [cursor?_finish, cursor?_hold_ne _ (hh (by rw [hk]; rfl)), cursor?_dismiss]
      all_goals simp
    · rename_i f a _ _ hf _
      have hd := (closed_dismiss c t).trans hc
      rw [conclude, cursor?_proceed hd hu hf, cursor?_dismiss]
    · rfl

theorem cursor?_step_closed (hc : c.closed = true) (hk : c.cursor? token = some k)
    (hn : ¬ Claims token c e) :
    (c.step e).cursor? token = some (if e.isNext token then k.past 1 else k) := by
  have hsame (he : e.isNext token = false) (hs : (c.step e).cursor? token = c.cursor? token) :
      (c.step e).cursor? token = some (if e.isNext token then k.past 1 else k) := by
    rw [hs, hk, he, if_neg Bool.false_ne_true]
  cases e with
  | call call => exact cursor?_call_closed hc hk hn
  | dropCursor other =>
    have ho : other ≠ token := by
      rintro rfl
      exact hn (.caller (beq_self_eq_true _))
    refine hsame rfl ?_
    simp only [Client.step, Client.dropCursor]
    split
    · rfl
    · rw [cursor?_abandon, cursor?_take_ne c ho]
  | useDb name => exact hsame rfl rfl
  | cancel id =>
    refine hsame rfl (cursor?_cancel ?_)
    rintro t ht rfl
    exact of_not_not fun ha => hn (.cancel ht ha)
  | stopDropped | enqueue | write | failWrite | receive | endOfStream =>
    exact hsame rfl (by rw [cursor?, (step_inner c rfl).2, cursor?])
  | resume id =>
    refine hsame rfl (cursor?_resume hc ?_)
    rintro t ht rfl
    exact of_not_not fun ha => hn (.resume ht ha)

theorem cursor?_after_closed (hc : c.closed = true) (hk : c.cursor? token = some k)
    {events : List Event} (hn : ¬ Once (Claims token) c events) :
    (c.after events).cursor? token = some (k.past (events.countP (Event.isNext token))) := by
  induction events generalizing c k with
  | nil => exact hk
  | cons e r ih =>
    obtain ⟨he, hr⟩ := not_or.mp hn
    have hd : (c.step e).closed = true := by rw [closed_step, hc, Bool.true_or]
    have hs := ih hd (cursor?_step_closed hc hk he) hr
    by_cases hi : e.isNext token = true
    · rw [if_pos hi, Cursor.past_past] at hs
      rw [List.countP_cons_of_pos hi, Nat.add_comm]
      exact hs
    · rw [if_neg hi] at hs
      rw [List.countP_cons_of_neg hi]
      exact hs

theorem Regular.apart (h : Regular c) (hk : c.cursor? token = some k) (ht : t ∈ c.tasks) :
    t.Apart token := by
  have hframe : ∀ f, t.work = .frame f → f.token ≠ token := by
    rintro f hf rfl
    have hft : (Holder.task t).token? = some f.token := by simp [Holder.token?, hf, Work.frame?]
    cases h.eq (task_mem_holders.mpr ht) (cursor_mem_holders.mpr (mem_of_cursor? hk)) hft
      (congrArg some (token_of_cursor? hk))
  refine ⟨hframe, fun j hj => ?_⟩
  obtain ⟨f, hf⟩ : ∃ f, t.work = .frame f := by
    obtain ⟨id, purpose, work⟩ := t
    cases h.apt _ ht with
    | next | collect | stop => exact ⟨_, rfl⟩
    | run | silent | noreplyWait | serverInfo | abandon | close => cases hj
  exact cursor_token_of_apt (h.apt t ht) hf hj ▸ hframe f hf

theorem Regular.claims_of_once (h : Regular c) (hc : c.closed = true)
    (hk : c.cursor? token = some k) {events : List Event}
    (fresh : (c.after events).issued < UInt64.size) (ho : Once (Claims token) c events) :
    ∃ e ∈ events, e.claims token = true := by
  induction events generalizing c k with
  | nil => cases ho
  | cons e r ih =>
    by_cases he : Claims token c e
    · refine ⟨e, List.mem_cons_self, ?_⟩
      cases he with
      | caller hm => exact hm
      | resume ht ha | cancel ht ha => exact absurd (h.apart hk ht) ha
    · have hs := Nat.lt_of_le_of_lt (issued_le_after (c.step e) r) fresh
      have hd : (c.step e).closed = true := by rw [closed_step, hc, Bool.true_or]
      obtain ⟨i, hi, hm⟩ := ih (h.step hs) hd (cursor?_step_closed hc hk he) fresh
        (ho.resolve_left he)
      exact ⟨i, List.mem_cons_of_mem _ hi, hm⟩

/-- What has become of a closed connection after some events. It is still closed, and only calls
that began before can bring anything to the queue. Calls end as they begin, without a task and
without a frame: those that would ask the server are told that the connection is closed, and those
that need nothing of it succeed. A cursor in the callers' hands gives the rows that have arrived,
one after the other; then it is at its end if it is exhausted, and cut off if it is not. Before the
tokens run out nobody but the callers lays hands on it. -/
structure Terminal (c : Client) (events : List Event) : Prop where
  closed : (c.after events).closed = true
  queues : ∀ e, (c.after events).queues e ≠ [] → ∃ id < c.begun, e = .enqueue id
  run : ∀ q o, (c.after events).Returns (.run q o) (.error .connectionClosed)
  noreplyWait : (c.after events).Returns .noreplyWait (.error .connectionClosed)
  serverInfo : (c.after events).Returns .serverInfo (.error .connectionClosed)
  close : (c.after events).Returns .close (.ok .done)
  stop : ∀ token k, (c.after events).cursor? token = some k →
    (c.after events).Returns (.stop token) (.ok .done)
  collect : ∀ token k, (c.after events).cursor? token = some k →
    (c.after events).Returns (.collect token) (k.ending (.rows k.buffer))
  next : ∀ token k, c.cursor? token = some k → ¬ Once (Claims token) c events →
    (c.after events).Returns (.next token) (k.nth (events.countP (Event.isNext token)))
  claims : (c.after events).issued < UInt64.size → ∀ token k, c.cursor? token = some k →
    Once (Claims token) c events → ∃ e ∈ events, e.claims token = true

theorem closed_terminal (reachable : Reachable c) (closed : c.closed = true)
    (events : List Event) : Terminal c events := by
  have ho := reachable.orderly
  have hs : Sealed c.begun (c.after events) := (Sealed.mk ho closed ho.begun).after events
  have hc := hs.closed
  exact
    { closed := hc
      queues := fun _ hq => hs.queues hq
      run := returns_run hc
      noreplyWait := returns_noreplyWait hc
      serverInfo := returns_serverInfo hc
      close := returns_close hc
      stop := fun _ _ hk => returns_stop_closed hc hk
      collect := fun _ _ hk => returns_collect hc hk
      next := by
        intro token k hk hn
        have hr := returns_next hc (cursor?_after_closed closed hk hn)
        rwa [Cursor.nth_past] at hr
      claims := by
        intro fresh token k hk
        have hr := reachable.regular (Nat.lt_of_le_of_lt (issued_le_after c events) fresh)
        exact hr.claims_of_once closed hk fresh }

theorem closed_terminal_of_two_rows :
    let c := ({} : Client).after [.call (.run (.datum .null) {}), .enqueue 0, .write,
      .receive ⟨1, .array [.int 3, .array [.bool true, .null]]⟩, .resume 0, .call .serverInfo,
      .enqueue 1, .endOfStream]
    let events : List Event := [.call (.next 1), .write, .resume 1, .call (.next 1), .call .close]
    c.closed = true ∧ Terminal c events ∧
      (c.after events).Returns (.next 1) (.error .connectionClosed) := by
  intro c events
  have hc : Reachable c := ⟨none, _, rfl⟩
  have ho : c.closed = true := by decide +kernel
  have ht := closed_terminal hc ho events
  obtain ⟨k, hk, hn⟩ : ∃ k, c.cursor? 1 = some k ∧ k.nth 2 = .error .connectionClosed :=
    ⟨_, rfl, rfl⟩
  have fresh : (c.after events).issued < UInt64.size := by decide +kernel
  refine ⟨ho, ht, hn ▸ ht.next 1 k hk fun hm => ?_⟩
  obtain ⟨e, he, hm⟩ := ht.claims fresh 1 k hk hm
  simp only [events, List.mem_cons, List.not_mem_nil, or_false] at he
  rcases he with rfl | rfl | rfl | rfl | rfl <;> cases hm

end Client

end ReqlDriver
