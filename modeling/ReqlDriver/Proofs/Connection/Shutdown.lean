import ReqlDriver.Proofs.Connection.Closed
import ReqlDriver.Proofs.Connection.Endings

namespace ReqlDriver.Client

structure Recorded (c : Client) : Prop where
  orderly : Orderly c
  queue : ∀ w ∈ c.queue, w.2 < c.begun
  finished : ∀ r ∈ c.finished, r.1 < c.begun
  emptied : c.shut = true → c.queue = []
  pending : c.closed = true → c.waiters.pending = []

structure Closes (c : Client) (t : Task) : Prop where
  purpose : t.purpose = .close
  work : t.work = .shutdown
  out : t.phase = .written ∨ t.phase = .refused → c.shut = true

structure Closing (id : Nat) (c : Client) : Prop extends Sealed (id + 1) c where
  begun : id < c.begun
  task : ∀ t ∈ c.tasks, t.id = id → Closes c t
  queue : ∀ w ∈ c.queue, w.2 = id → w.1 = .shutdown
  finished : ∀ outcome, (id, outcome) ∈ c.finished → outcome = .ok .done ∧ c.shut = true

variable {c : Client} {e : Event} {id : Nat} {t u : Task} {p : UInt64 × Nat}

theorem Asks.waiters_of_closed {d : Client} (h : Asks c id d) (hc : c.closed = true) :
    d.waiters = c.waiters := by
  cases h with
  | nothing _ hd => exact hd
  | unanswered _ ho | once _ ho =>
    rw [hc] at ho
    cases ho

theorem mem_pending_closed (hc : c.closed = true) (hp : p ∈ (c.step e).waiters.pending) :
    p ∈ c.waiters.pending := by
  rcases entered_step hp with hm | he
  · exact hm
  generalize p.2 = i at he
  cases he with
  | begins call =>
    rw [step] at hp
    rcases call_asks c call with rfl | ha | ⟨k, -, -, ha⟩
    · rwa [call_close_closed hc] at hp
    · rwa [ha.waiters_of_closed hc] at hp
    · rw [ha.waiters_of_closed hc] at hp
      exact (mem_pending_without.mp hp).1
  | resumes =>
    rw [step] at hp
    rcases resume_asks c i with hi | ⟨t, -, -, ha⟩
    · rwa [hi] at hp
    · rw [ha.waiters_of_closed ((closed_dismiss c t).trans hc)] at hp
      exact (pending_dismiss c t).subset hp

theorem waiters_of_ends (hc : c.closed = false) (he : e.ends = true) :
    (c.step e).waiters = { pending := [], closed := true } := by
  cases e with
  | call call =>
    cases call with
    | close =>
      have hd : { c with begun := c.begun + 1 }.closed = false := hc
      simp only [step, Client.call, beginClose, hd, Bool.false_eq_true, if_false]
      exact waiters_endOfStream _
    | _ => cases he
  | endOfStream => exact waiters_endOfStream c
  | _ => cases he

theorem recorded_start (db : Option String) : Recorded { db } :=
  ⟨orderly_start db, List.forall_mem_nil _, List.forall_mem_nil _, fun _ => rfl, fun _ => rfl⟩

theorem Recorded.queue_step (h : Recorded c) (e : Event) :
    (∀ w ∈ (c.step e).queue, w.2 < c.begun) ∧
      ((c.step e).shut = true → (c.step e).queue = []) := by
  obtain ⟨s, hs, hq, hshut⟩ : ∃ s, Stands c e s ∧ (c.step e).queue = s.queue ∧
      (c.step e).shut = s.shut := ⟨_, stands_step c e, rfl, rfl⟩
  rw [hq, hshut]
  -- what is left of a queue that held something belongs to a sending side that has not ended
  have hrest {w : Work × Nat} {rest : List (Work × Nat)} (hc : c.queue = w :: rest) :
      (∀ w ∈ rest, w.2 < c.begun) ∧ (c.shut = true → rest = []) := by
    refine ⟨fun v hv => h.queue v (hc ▸ List.mem_cons_of_mem _ hv), fun ho => ?_⟩
    rw [h.emptied ho] at hc
    cases hc
  cases hs with
  | quiet | idle | spared => exact ⟨h.queue, h.emptied⟩
  | queued ht ha =>
    refine ⟨fun w hw => ?_, fun ho => ?_⟩
    · rcases List.mem_append.mp hw with hw | hw
      · exact h.queue w hw
      · obtain rfl := List.mem_singleton.mp hw
        exact h.orderly.begun _ (mem_of_task? ht).1
    · cases ha.shut.symm.trans ho
  | written hc | failed hc => exact hrest hc
  | shut => exact ⟨List.forall_mem_nil _, fun _ => rfl⟩

theorem Recorded.step (h : Recorded c) (e : Event) : Recorded (c.step e) where
  orderly := h.orderly.step e
  queue := fun w hw => Nat.lt_of_lt_of_le ((h.queue_step e).1 w hw) (begun_le_step c e)
  finished := by
    intro r hr
    have hle := begun_le_step c e
    rcases recorded_step hr with hm | ⟨hi, hb⟩ | ⟨t, ht, hi, -⟩
    · exact Nat.lt_of_lt_of_le (h.finished r hm) hle
    · omega
    · exact hi ▸ Nat.lt_of_lt_of_le (h.orderly.begun t ht) hle
  emptied := (h.queue_step e).2
  pending := by
    intro hd
    cases hc : c.closed with
    | true =>
      apply List.eq_nil_iff_forall_not_mem.mpr
      intro p hp
      have hm := mem_pending_closed hc hp
      rw [h.pending hc] at hm
      cases hm
    | false =>
      rw [closed_step, hc, Bool.false_or] at hd
      rw [waiters_of_ends hc hd]

theorem Recorded.after (h : Recorded c) (events : List Event) : Recorded (c.after events) := by
  induction events generalizing c with
  | nil => exact h
  | cons e r ih => exact ih (h.step e)

theorem Reachable.recorded (h : Reachable c) : Recorded c := by
  obtain ⟨db, events, rfl⟩ := h
  exact (recorded_start db).after events

theorem shut_write {rest : List (Work × Nat)} (hq : c.queue = (.shutdown, id) :: rest) :
    (c.step .write).shut = true := by
  simp only [step, write, hq]

theorem resume_close (ht : c.task? t.id = some t) (hc : Closes c t) : c.resume t.id = c ∨
    c.shut = true ∧ c.resume t.id = (c.dismiss t).finish t.id (.ok .done) := by
  unfold resume
  rw [ht]
  dsimp only
  split
  · rename_i hp
    refine .inr ⟨hc.out (.inr hp), ?_⟩
    simp only [refuse, hc.purpose]
  · rename_i hp _
    refine .inr ⟨hc.out (.inl hp), ?_⟩
    simp only [complete, hc.purpose]
  · rename_i hf _
    rw [hc.work] at hf
    cases hf
  · exact .inl rfl

theorem Closing.task_step (h : Closing id c) (e : Event) :
    ∀ u ∈ (c.step e).tasks, u.id = id → Closes (c.step e) u := by
  intro u hu hi
  obtain ⟨t, ht, hm⟩ := h.orderly.marked_closed h.closed hu
  have hti : t.id = id := hm.id_eq.symm.trans hi
  have hc := h.task t ht hti
  have hstays (hp : u.phase = t.phase) : u.phase = .written ∨ u.phase = .refused →
      (c.step e).shut = true := fun ho => shut_step (hc.out (hp ▸ ho)) e
  refine ⟨hm.purpose_eq.trans hc.purpose, hm.work_eq.trans hc.work, ?_⟩
  cases hm with
  | same | answered | ended => exact hstays rfl
  | queued => simp
  | barred _ hs => exact fun _ => shut_step hs _
  | written hq =>
    -- the work of the call is the shutdown
    obtain rfl := h.queue _ (hq ▸ List.mem_cons_self) hti
    exact fun _ => shut_write hq
  | missed hq => exact fun _ => shut_write hq
  | failed _ hq => cases h.queue _ (hq ▸ List.mem_cons_self) hti

theorem Closing.queue_step (h : Closing id c) (e : Event) :
    ∀ w ∈ (c.step e).queue, w.2 = id → w.1 = .shutdown := by
  obtain ⟨s, hs, hq⟩ : ∃ s, Stands c e s ∧ (c.step e).queue = s.queue := ⟨_, stands_step c e, rfl⟩
  rw [hq]
  cases hs with
  | quiet | idle | spared => exact h.queue
  | queued ht =>
    intro w hw hi
    rcases List.mem_append.mp hw with hw | hw
    · exact h.queue w hw hi
    · obtain rfl := List.mem_singleton.mp hw
      exact (h.task _ (mem_of_task? ht).1 hi).work
  | written hc | failed hc => exact fun w hw => h.queue w (hc ▸ List.mem_cons_of_mem _ hw)
  | shut => exact List.forall_mem_nil _

theorem Closing.finished_step (h : Closing id c) (e : Event) : ∀ outcome,
    (id, outcome) ∈ (c.step e).finished → outcome = .ok .done ∧ (c.step e).shut = true := by
  intro outcome hr
  have hold (hm : (id, outcome) ∈ c.finished) :
      outcome = .ok .done ∧ (c.step e).shut = true :=
    (h.finished outcome hm).imp_right fun hs => shut_step hs e
  rcases recorded_step hr with hm | ⟨hi, -⟩ | ⟨t, ht, rfl, he⟩
  · exact hold hm
  · exact absurd h.begun (Nat.not_lt_of_le (Nat.le_of_eq hi.symm))
  · subst he
    have hc := h.task t ht rfl
    rcases resume_close (h.orderly.task?_eq ht) hc with hs | ⟨hshut, hs⟩
    · rw [step, hs] at hr
      exact hold hr
    · rw [step, hs] at hr
      have hd := finished_dismiss c t
      rcases List.mem_append.mp hr with hr | hr
      · exact hold (hd ▸ hr)
      · exact ⟨congrArg Prod.snd (List.mem_singleton.mp hr), shut_step hshut _⟩

theorem Closing.step (h : Closing id c) (e : Event) : Closing id (c.step e) where
  toSealed := h.toSealed.step e
  begun := Nat.lt_of_lt_of_le h.begun (begun_le_step c e)
  task := h.task_step e
  queue := h.queue_step e
  finished := h.finished_step e

theorem Closing.after (h : Closing id c) (events : List Event) : Closing id (c.after events) := by
  induction events generalizing c with
  | nil => exact h
  | cons e r ih => exact ih (h.step e)

theorem call_close_open (hc : c.closed = false) : c.call .close =
    { c with begun := c.begun + 1 }.endOfStream.spawn
      { id := c.begun, purpose := .close, work := .shutdown } := by
  have hd : { c with begun := c.begun + 1 }.closed = false := hc
  simp only [Client.call, beginClose, hd, Bool.false_eq_true, if_false]

theorem mem_tasks_endOfStream (hu : u ∈ c.endOfStream.tasks) : ∃ t ∈ c.tasks, u.id = t.id := by
  rw [endOfStream_eq] at hu
  obtain ⟨t, ht, rfl⟩ := List.mem_map.mp hu
  refine ⟨t, ht, ?_⟩
  split <;> rfl

theorem closing_call (h : Recorded c) (hc : c.closed = false) :
    Closing c.begun (c.call .close) := by
  have ho : Orderly (c.call .close) := h.orderly.call .close
  have hs := call_close_open hc
  have hst : (c.call .close).standing = { c.standing with begun := c.begun + 1, closed := true } := by
    rw [hs, standing_spawn, standing_endOfStream]
    rfl
  have hb : (c.call .close).begun = c.begun + 1 := congrArg Standing.begun hst
  have hq : (c.call .close).queue = c.queue := congrArg Standing.queue hst
  have hf : (c.call .close).finished = c.finished := by
    rw [hs]
    exact finished_answerAll _ _
  have hlt : c.begun < (c.call .close).begun := hb ▸ Nat.lt_succ_self _
  refine ⟨⟨ho, congrArg Standing.closed hst, hb ▸ ho.begun⟩, hlt, ?_, ?_, ?_⟩
  · intro u hu hi
    rw [hs] at hu
    rcases List.mem_append.mp hu with hu | hu
    · obtain ⟨t, ht, hti⟩ := mem_tasks_endOfStream hu
      exact absurd (h.orderly.begun t ht) (by rw [← hti, hi]; exact Nat.lt_irrefl _)
    · obtain rfl := List.mem_singleton.mp hu
      exact ⟨rfl, rfl, by simp⟩
  · intro w hw hi
    exact absurd (h.queue w (hq ▸ hw)) (by rw [hi]; exact Nat.lt_irrefl _)
  · intro outcome hr
    exact absurd (h.finished _ (hf ▸ hr)) (Nat.lt_irrefl _)

theorem Sending.step_closed (h : Sending c) (ho : Orderly c) (hc : c.closed = true) (e : Event) :
    Sending (c.step e) := by
  obtain ⟨s, hs, hq, hshut⟩ : ∃ s, Stands c e s ∧ (c.step e).queue = s.queue ∧
      (c.step e).shut = s.shut := ⟨_, stands_step c e, rfl, rfl⟩
  refine ⟨?_, ?_, ?_⟩
  · rw [hshut]
    cases hs with
    | shut hc => exact absurd rfl (h.queue _ (hc ▸ List.mem_cons_self))
    | _ => exact h.shut
  · rw [hq]
    cases hs with
    | quiet | idle | spared => exact h.queue
    | queued ht =>
      intro w hw
      rcases List.mem_append.mp hw with hw | hw
      · exact h.queue w hw
      · obtain rfl := List.mem_singleton.mp hw
        exact h.tasks _ (mem_of_task? ht).1
    | written hc | failed hc => exact fun w hw => h.queue w (hc ▸ List.mem_cons_of_mem _ hw)
    | shut => exact List.forall_mem_nil _
  · intro u hu
    obtain ⟨t, ht, hm⟩ := ho.marked_closed hc hu
    rw [hm.work_eq]
    exact h.tasks t ht

theorem Sending.after_closed (h : Sending c) (ho : Orderly c) (hc : c.closed = true)
    (events : List Event) : Sending (c.after events) := by
  induction events generalizing c with
  | nil => exact h
  | cons e r ih =>
    exact ih (h.step_closed ho hc e) (ho.step e) (by rw [closed_step, hc, Bool.true_or])

theorem Recorded.written_step (h : Recorded c) (hs : c.shut = true) (e : Event) :
    (c.step e).written = c.written := by
  obtain ⟨s, hst, hw⟩ : ∃ s, Stands c e s ∧ (c.step e).written = s.written :=
    ⟨_, stands_step c e, rfl⟩
  rw [hw]
  cases hst with
  | written hq =>
    rw [h.emptied hs] at hq
    cases hq
  | _ => rfl

theorem Recorded.written_after (h : Recorded c) (hs : c.shut = true) (events : List Event) :
    (c.after events).written = c.written := by
  induction events generalizing c with
  | nil => rfl
  | cons e r ih => exact (ih (h.step e) (shut_step hs e)).trans (h.written_step hs e)

theorem shut_after (hs : c.shut = true) (events : List Event) :
    (c.after events).shut = true := by
  induction events generalizing c with
  | nil => exact hs
  | cons e r ih => exact ih (shut_step hs e)

theorem Recorded.waiters (h : Recorded c) (hc : c.closed = true) :
    c.waiters = { pending := [], closed := true } := by
  rw [← h.pending hc, ← hc]
  rfl

structure Over (c : Client) : Prop where
  queue : c.queue = []
  shut : ∀ events, (c.after events).shut = true
  written : ∀ events, (c.after events).written = c.written

/-- Nobody waits after a call to close. One that finds the connection open ends with success, if it
ends, and by then the sending side is over. One that finds it closed ends at once and changes
nothing else; unless another is under way, the sending side is not shut down after it. -/
theorem close_over_of_open (reachable : Reachable c) (events : List Event) :
    ((c.step (.call .close)).after events).waiters = { pending := [], closed := true } ∧
    (c.closed = false → ∀ outcome,
      (c.begun, outcome) ∈ ((c.step (.call .close)).after events).finished →
        outcome = .ok .done ∧ Over ((c.step (.call .close)).after events)) ∧
    (c.closed = true →
      c.step (.call .close) = { c with begun := c.begun + 1 }.finish c.begun (.ok .done) ∧
      (c.Sending → ((c.step (.call .close)).after events).Sending)) := by
  have hr := reachable.recorded
  have hd := (hr.step (.call .close)).after events
  have hc : (c.step (.call .close)).closed = true := by rw [closed_step, Event.ends, Bool.or_true]
  refine ⟨?_, fun ho outcome hm => ?_, fun hcl => ⟨call_close_closed hcl, fun hs => ?_⟩⟩
  · have hs : Sealed _ (c.step (.call .close)) := ⟨hr.orderly.step _, hc, (hr.orderly.step _).begun⟩
    exact hd.waiters (hs.after events).closed
  · obtain ⟨rfl, hs⟩ := ((closing_call hr ho).after events).finished outcome hm
    exact ⟨rfl, hd.emptied hs, shut_after hs, hd.written_after hs⟩
  · exact (hs.step_closed hr.orderly hcl _).after_closed (hr.orderly.step _) hc events

theorem close_over_of_open_request :
    let c := ({} : Client).after [.call (.run (.datum .null) {}), .enqueue 0]
    let events : List Event := [.enqueue 1, .write, .call .serverInfo, .write, .resume 1]
    (1, .ok .done) ∈ ((c.step (.call .close)).after events).finished ∧
      Over ((c.step (.call .close)).after events) := by
  intro c events
  have hm : (1, .ok .done) ∈ ((c.step (.call .close)).after events).finished :=
    List.mem_of_getElem? (show _[1]? = _ from rfl)
  obtain ⟨-, h, -⟩ := close_over_of_open (c := c) ⟨none, _, rfl⟩ events
  exact ⟨hm, (h rfl _ hm).2⟩

theorem close_not_over :
    let c := ({} : Client).after [.call (.run (.datum .null) {}), .enqueue 0, .endOfStream]
    let d := c.step (.call .close)
    Reachable c ∧ (1, .ok .done) ∈ d.finished ∧ d.shut = false ∧
      (d.step .write).written ≠ d.written := by
  intro c d
  refine ⟨⟨none, _, rfl⟩, List.mem_singleton.mpr rfl, rfl, fun h => ?_⟩
  exact absurd (congrArg List.length h) (by decide +kernel)

end ReqlDriver.Client
