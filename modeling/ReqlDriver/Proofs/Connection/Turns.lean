import ReqlDriver.Proofs.Connection.Holders
import ReqlDriver.Proofs.Connection.Standing

namespace ReqlDriver

def Task.sending (id : Nat) (purpose : Purpose) (f : Frame) : Task :=
  { id, purpose, work := .frame f }

namespace Client

/-- What an event makes of a task that goes on. -/
inductive Marked (c : Client) : Event → Task → Task → Prop
  | same {e : Event} {t : Task} : (e = .enqueue t.id → ¬ c.Admits t) → Marked c e t t
  | queued {t : Task} : c.Admits t → Marked c (.enqueue t.id) t { t with phase := .queued }
  | barred {t : Task} : t.phase = .unsent → c.shut = true →
      Marked c (.enqueue t.id) t { t with phase := .refused }
  | written {t : Task} {work : Work} {rest : List (Work × Nat)} : c.queue = (work, t.id) :: rest →
      Marked c .write t { t with phase := .written }
  | missed {t : Task} {id : Nat} {rest : List (Work × Nat)} : c.queue = (.shutdown, id) :: rest →
      t.id ∈ rest.map Prod.snd → Marked c .write t { t with phase := .refused }
  | failed {t : Task} {f : Frame} {rest : List (Work × Nat)} (fault : WriteFault) :
      c.queue = (.frame f, t.id) :: rest →
      Marked c (.failWrite fault) t { t with phase := .refused, fault := some fault }
  | answered {t : Task} (f : Frame) : c.waiters.get? f.token = some t.id →
      Marked c (.receive f) t { t with answer := some f.answer }
  | ended {t : Task} {e : Event} : e.ends = true → t.id ∈ c.waiters.pending.map Prod.snd →
      Marked c e t { t with answer := some (.error .connectionClosed) }

inductive Begins (c : Client) : Event → Task → Prop
  | run {q : Term} {o : Options} : c.closed = false → o.noreply = false →
      Begins c (.call (.run q o))
        (.sending c.begun .run (Frame.start c.issue.1 q (o.entries c.db)))
  | silent {q : Term} {o : Options} : c.closed = false → o.noreply = true →
      Begins c (.call (.run q o))
        (.sending c.begun .silent (Frame.start c.issue.1 q (o.entries c.db)))
  | noreplyWait : c.closed = false → Begins c (.call .noreplyWait)
      (.sending c.begun .noreplyWait (Frame.control c.issue.1 .noreplyWait))
  | serverInfo : c.closed = false → Begins c (.call .serverInfo)
      (.sending c.begun .serverInfo (Frame.control c.issue.1 .serverInfo))
  | close : Begins c (.call .close) { id := c.begun, purpose := .close, work := .shutdown }

inductive Advanced (closed : Bool) (id : Nat) (k : Cursor) : Holder → Prop
  | row {d : Datum} {r : List Datum} : k.buffer = d :: r →
      Advanced closed id k (.cursor { k with buffer := r })
  | ended : k.buffer = [] → k.exhausted = true → Advanced closed id k (.cursor k)
  | refused : k.buffer = [] → k.exhausted = false → Advanced closed id k (.cursor k)
  | asked : k.buffer = [] → k.exhausted = false → closed = false →
      Advanced closed id k (.task (.sending id (.next k) (Frame.control k.token .fetch)))

inductive Gathered (closed : Bool) (id : Nat) (k : Cursor) (rows : List Datum) :
    Option Holder → Prop
  | ended : k.exhausted = true → Gathered closed id k rows none
  | refused : k.exhausted = false → Gathered closed id k rows (some (.dropped k.token))
  | asked : k.exhausted = false → closed = false → Gathered closed id k rows (some (.task
      (.sending id (.collect { k with buffer := [] } (rows ++ k.buffer))
        (Frame.control k.token .fetch))))

inductive Concluded (closed : Bool) (t : Task) (f : Frame) (a : Answer) : Option Holder → Prop
  | started {k : Cursor} : t.purpose = .run → a.result f.token = .ok (.cursor k) →
      Concluded closed t f a (some (.cursor k))
  | ended : t.purpose = .run ∨ t.purpose = .noreplyWait ∨ t.purpose = .serverInfo →
      Concluded closed t f a none
  | failedNext {k j : Cursor} {e : Error} : t.purpose = .next k → k.receive a = (j, some e) →
      Concluded closed t f a (some (.cursor j))
  | next {k j : Cursor} {h : Holder} : t.purpose = .next k → k.receive a = (j, none) →
      Advanced closed t.id j h → Concluded closed t f a (some h)
  | failedCollect {k j : Cursor} {rows : List Datum} {e : Error} : t.purpose = .collect k rows →
      k.receive a = (j, some e) → Concluded closed t f a j.remains
  | collect {k j : Cursor} {rows : List Datum} {o : Option Holder} :
      t.purpose = .collect k rows → k.receive a = (j, none) → Gathered closed t.id j rows o →
      Concluded closed t f a o

end Client

def Purpose.leaves : Purpose → Option Holder
  | next k => some (.cursor k)
  | stop k => some (.cursor k)
  | collect k _ => k.remains
  | _ => none

namespace Client

/-- How a holder passes its token on. -/
inductive Passes (c : Client) : Event → Holder → Option Holder → Prop
  | next {k : Cursor} {h : Holder} : Advanced c.closed c.begun k h →
      Passes c (.call (.next k.token)) (.cursor k) (some h)
  | collect {k : Cursor} {o : Option Holder} : Gathered c.closed c.begun k [] o →
      Passes c (.call (.collect k.token)) (.cursor k) o
  | stopped {k : Cursor} : k.exhausted = true ∨ c.closed = true →
      Passes c (.call (.stop k.token)) (.cursor k) (some (.cursor k.stopped))
  | stop {k : Cursor} : k.exhausted = false → c.closed = false →
      Passes c (.call (.stop k.token)) (.cursor k)
        (some (.task (.sending c.begun (.stop k.stopped) (Frame.control k.token .stop))))
  | drop {k : Cursor} : Passes c (.dropCursor k.token) (.cursor k) k.remains
  | forget {token : UInt64} : c.closed = true → Passes c (.stopDropped token) (.dropped token) none
  | tell {token : UInt64} : c.closed = false → Passes c (.stopDropped token) (.dropped token)
      (some (.task (.sending c.begun .abandon (Frame.control token .stop))))
  | cancel {t : Task} : t.purpose ≠ .abandon → Passes c (.cancel t.id) (.task t) t.purpose.leaves
  | refuse {t : Task} : t.phase = .refused → Passes c (.resume t.id) (.task t) t.purpose.leaves
  | complete {t : Task} : t.phase = .written → t.purpose.awaits = false →
      Passes c (.resume t.id) (.task t) t.purpose.leaves
  | conclude {t : Task} {f : Frame} {a : Answer} {o : Option Holder} : t.phase = .written →
      t.work = .frame f → t.answer = some a → Concluded c.closed t f a o →
      Passes c (.resume t.id) (.task t) o

inductive Turn (c : Client) (e : Event) : Prop
  | stays (f : Task → Task) (begins : Option Task) : (∀ t ∈ c.tasks, Marked c e t (f t)) →
      (∀ t ∈ begins, Begins c e t) →
      (c.step e).holders =
        (begins.toList.map Holder.task : Multiset Holder) + c.holders.map (Holder.mapTask f) →
      Turn c e
  | passes {h : Holder} {o : Option Holder} {rest : Multiset Holder} : Passes c e h o →
      c.holders = h ::ₘ rest → (c.step e).holders = (o.toList : Multiset Holder) + rest → Turn c e

variable {c : Client} {id : Nat} {k : Cursor} {t : Task}

theorem Marked.other {e : Event} (h : e.enqueues = false) (t : Task) : Marked c e t t := by
  apply Marked.same
  rintro rfl
  cases h

theorem Turn.idle {e : Event} (ha : ∀ t ∈ c.tasks, e = .enqueue t.id → ¬ c.Admits t)
    (h : (c.step e).holders = c.holders) : Turn c e :=
  .stays (fun t => t) none (fun t ht => .same (ha t ht)) (by simp) (by simp [h])

theorem Turn.still {e : Event} (he : e.enqueues = false) (h : (c.step e).holders = c.holders) :
    Turn c e :=
  .stays (fun t => t) none (fun t _ => .other he t) (by simp) (by simp [h])

theorem Turn.begin {e : Event} (he : e.enqueues = false) (ht : Begins c e t)
    (h : (c.step e).holders = .task t ::ₘ c.holders) : Turn c e := by
  refine .stays (fun t => t) (some t) (fun t _ => .other he t) ?_ (by simp [h])
  intro u hu
  obtain rfl := Option.mem_some_iff.mp hu
  exact ht

theorem holders_request {c' : Client} {purpose : Purpose} {f : Frame}
    (h : c.request id purpose f = .ok c') :
    c'.holders = .task (.sending id purpose f) ::ₘ c.holders := by
  obtain ⟨-, -, rfl⟩ := request_eq_ok_iff.mp h
  exact holders_spawn _ _

theorem closed_of_request {c' : Client} {purpose : Purpose} {f : Frame}
    (h : c.request id purpose f = .ok c') : c.closed = false := (request_eq_ok_iff.mp h).1

theorem holders_requestOrFail (c : Client) (id : Nat) (purpose : Purpose) (f : Frame) :
    (c.requestOrFail id purpose f).holders = c.holders ∨ c.closed = false ∧
      (c.requestOrFail id purpose f).holders = .task (.sending id purpose f) ::ₘ c.holders := by
  unfold requestOrFail
  cases hr : c.request id purpose f with
  | ok c' => exact .inr ⟨closed_of_request hr, holders_request hr⟩
  | error e => exact .inl rfl

theorem holders_advance (c : Client) (id : Nat) (k : Cursor) :
    ∃ h, Advanced c.closed id k h ∧ (c.advance id k).holders = h ::ₘ c.holders := by
  cases hb : k.buffer with
  | cons d r =>
    rw [advance_row c id hb]
    exact ⟨_, .row hb, by simp⟩
  | nil =>
    cases he : k.exhausted with
    | true =>
      rw [advance_ended c id hb he]
      exact ⟨_, .ended hb he, by simp⟩
    | false =>
      cases hr : c.request id (.next k) (Frame.control k.token .fetch) with
      | ok c' =>
        rw [advance_fetch c id hb he hr]
        exact ⟨_, .asked hb he (closed_of_request hr), holders_request hr⟩
      | error e =>
        rw [advance_refused c id hb he hr]
        exact ⟨_, .refused hb he, by simp⟩

theorem holders_gather (c : Client) (id : Nat) (k : Cursor) (rows : List Datum) :
    ∃ o, Gathered c.closed id k rows o ∧
      (c.gather id k rows).holders = (o.toList : Multiset Holder) + c.holders := by
  cases he : k.exhausted with
  | true =>
    rw [gather_ended c id rows he]
    exact ⟨_, .ended he, by simp⟩
  | false =>
    cases hr : c.request id (.collect { k with buffer := [] } (rows ++ k.buffer))
        (Frame.control k.token .fetch) with
    | ok c' =>
      rw [gather_fetch c id rows he hr]
      refine ⟨_, .asked he (closed_of_request hr), ?_⟩
      rw [holders_request hr]
      rfl
    | error e =>
      rw [gather_refused c id rows he hr]
      refine ⟨_, .refused he, ?_⟩
      simp [Cursor.remains, he]

structure Exclusive (c : Client) : Prop where
  orderly : Orderly c
  tokens : (c.holders.filterMap Holder.token?).Nodup

theorem Exclusive.cursors (h : Exclusive c) : (c.cursors.map Cursor.token).Nodup := by
  have hle : (c.cursors.map Holder.cursor : Multiset Holder) ≤ c.holders :=
    (Multiset.le_add_left _ _).trans (Multiset.le_add_right _ _)
  have hn := Multiset.nodup_of_le (Multiset.filterMap_le_filterMap Holder.token? hle) h.tokens
  simpa [List.filterMap_map, Function.comp_def, Holder.token?] using hn

theorem turn_request {purpose : Purpose} {f : Frame} {e : Event} {d : Client}
    (he : e.enqueues = false) (hd : d.holders = c.holders)
    (hs : c.step e = d.requestOrFail id purpose f)
    (hb : d.closed = false → Begins c e (.sending id purpose f)) : Turn c e := by
  rcases holders_requestOrFail d id purpose f with hr | ⟨hc, hr⟩
  · exact .still he (by rw [hs, hr, hd])
  · exact .begin he (hb hc) (by rw [hs, hr, hd])

theorem turn_run (c : Client) (q : Term) (o : Options) : Turn c (.call (.run q o)) := by
  let d : Client := { c with begun := c.begun + 1 }
  have hs : c.step (.call (.run q o)) = d.beginRun c.begun q o := rfl
  cases hc : c.closed with
  | true =>
    rw [beginRun_closed (c := d) hc] at hs
    exact .still rfl (by rw [hs]; rfl)
  | false =>
    cases ho : o.noreply with
    | true =>
      rw [beginRun_noreply (c := d) hc q ho] at hs
      exact .begin rfl (.silent hc ho) (by rw [hs]; exact holders_spawn _ _)
    | false =>
      rw [beginRun_request (c := d) hc q ho] at hs
      exact turn_request (d := d.issue.2) rfl rfl hs fun hc => .run hc ho

theorem turn_next (h : Exclusive c) (token : UInt64) : Turn c (.call (.next token)) := by
  cases hk : c.cursor? token with
  | none => exact .still rfl (by simp [step, Client.call, hk])
  | some k =>
    obtain rfl := token_of_cursor? hk
    let d : Client := { c with begun := c.begun + 1 }
    have hs : c.step (.call (.next k.token)) = (d.take k.token).advance c.begun k := call_next hk
    obtain ⟨j, hj, hd⟩ := holders_advance (d.take k.token) c.begun k
    refine .passes (.next hj) (holders_take h.cursors (mem_of_cursor? hk)) ?_
    rw [hs, hd]
    rfl

theorem turn_collect (h : Exclusive c) (token : UInt64) : Turn c (.call (.collect token)) := by
  cases hk : c.cursor? token with
  | none => exact .still rfl (by simp [step, Client.call, hk])
  | some k =>
    obtain rfl := token_of_cursor? hk
    let d : Client := { c with begun := c.begun + 1 }
    have hs : c.step (.call (.collect k.token)) = (d.take k.token).gather c.begun k [] :=
      call_collect hk
    obtain ⟨o, ho, hd⟩ := holders_gather (d.take k.token) c.begun k []
    refine .passes (.collect ho) (holders_take h.cursors (mem_of_cursor? hk)) ?_
    rw [hs, hd]
    rfl

theorem turn_stop (h : Exclusive c) (token : UInt64) : Turn c (.call (.stop token)) := by
  cases hk : c.cursor? token with
  | none => exact .still rfl (by simp [step, Client.call, hk])
  | some k =>
    obtain rfl := token_of_cursor? hk
    let d : Client := { c with begun := c.begun + 1 }
    have hs : c.step (.call (.stop k.token)) = (d.take k.token).beginStop c.begun k := call_stop hk
    have ht := holders_take h.cursors (mem_of_cursor? hk)
    cases he : k.exhausted with
    | true =>
      rw [beginStop_exhausted _ _ he] at hs
      refine .passes (.stopped (.inl he)) ht ?_
      rw [hs, holders_finish, holders_hold]
      rfl
    | false =>
      cases hc : c.closed with
      | true =>
        rw [beginStop_closed (c := d.take k.token) hc _ he] at hs
        refine .passes (.stopped (.inr hc)) ht ?_
        rw [hs, holders_finish, holders_hold]
        rfl
      | false =>
        rw [beginStop_tell (c := d.take k.token) hc _ he] at hs
        refine .passes (.stop he hc) ht ?_
        rw [hs, tellStop, holders_spawn]
        rfl

def tellClosed (c : Client) (ids : List Nat) : Client :=
  { c with tasks := c.tasks.map fun t =>
      if t.id ∈ ids then { t with answer := some (.error .connectionClosed) } else t }

theorem answerAll_closed (c : Client) (ids : List Nat) :
    c.answerAll (ids.map fun id => (id, .error .connectionClosed)) = c.tellClosed ids := by
  induction ids generalizing c with
  | nil => simp [answerAll, tellClosed]
  | cons i r ih =>
    have hs : c.answerAll ((i :: r).map fun id => (id, .error .connectionClosed)) =
        (c.updateTask i fun t => { t with answer := some (.error .connectionClosed) }).answerAll
          (r.map fun id => (id, .error .connectionClosed)) := rfl
    rw [hs, ih]
    simp only [tellClosed, updateTask, List.map_map]
    congr 1
    apply List.map_congr_left
    intro t _
    by_cases hi : t.id = i <;> by_cases hr : t.id ∈ r <;> simp [hi, hr]

theorem endOfStream_eq (c : Client) : c.endOfStream =
    { c with waiters := { pending := [], closed := true } }.tellClosed
      (c.waiters.pending.map Prod.snd) := by
  rw [← answerAll_closed, List.map_map]
  rfl

theorem turn_tellClosed {e : Event} (he : e.ends = true) {begins : Option Task}
    (hb : ∀ t ∈ begins, Begins c e t)
    (h : (c.step e).holders = (begins.toList.map Holder.task : Multiset Holder) +
      (c.tellClosed (c.waiters.pending.map Prod.snd)).holders) : Turn c e := by
  refine .stays _ begins ?_ hb (h.trans (by rw [tellClosed, holders_mapTasks]))
  intro t _
  split
  · rename_i hm
    exact .ended he hm
  · apply Marked.same
    rintro rfl
    cases he

theorem turn_close (c : Client) : Turn c (.call .close) := by
  let d : Client := { c with begun := c.begun + 1 }
  have hs : c.step (.call .close) = d.beginClose c.begun := rfl
  cases hc : c.closed with
  | true =>
    have hd : d.closed = true := hc
    simp only [beginClose, hd, if_true] at hs
    exact .still rfl (by rw [hs]; rfl)
  | false =>
    have hd : d.closed = false := hc
    simp only [beginClose, hd, Bool.false_eq_true, if_false] at hs
    let t : Task := { id := c.begun, purpose := .close, work := .shutdown }
    have hb : ∀ u ∈ some t, Begins c (.call .close) u := by
      intro u hu
      obtain rfl := Option.mem_some_iff.mp hu
      exact .close
    refine turn_tellClosed rfl hb ?_
    rw [hs, holders_spawn, endOfStream_eq]
    rfl

theorem turn_endOfStream (c : Client) : Turn c .endOfStream := by
  have hb : ∀ t ∈ (none : Option Task), Begins c .endOfStream t := by simp
  refine turn_tellClosed rfl hb ?_
  have hs : c.step .endOfStream = c.endOfStream := rfl
  rw [hs, endOfStream_eq]
  exact (zero_add _).symm

theorem turn_update (c d : Client) (i : Nat) (g : Task → Task) {e : Event}
    (he : e.enqueues = false ∨ e = .enqueue i) (hd : d.holders = c.holders)
    (hs : c.step e = d.updateTask i g) (hg : ∀ t ∈ c.tasks, t.id = i → Marked c e t (g t)) :
    Turn c e := by
  refine .stays (fun t => if t.id = i then g t else t) none ?_ (by simp) ?_
  · intro t ht
    split
    · rename_i hi
      exact hg t ht hi
    · rename_i hi
      apply Marked.same
      rintro rfl
      rcases he with he | he
      · cases he
      · exact absurd (Event.enqueue.inj he) hi
  · rw [hs, updateTask, holders_mapTasks, hd]
    simp

theorem turn_receive (c : Client) (f : Frame) : Turn c (.receive f) := by
  cases hg : c.waiters.get? f.token with
  | none =>
    have hs : c.step (.receive f) = c := by
      simp [step, Client.receive, Waiters.dispatch, hg, answerAll]
    exact .still rfl (by rw [hs])
  | some i =>
    apply turn_update c { c with waiters := c.waiters.remove f.token } i
      (fun t => { t with answer := some f.answer }) (.inl rfl) rfl
    · simp [step, Client.receive, Waiters.dispatch, hg, answerAll]
    · rintro t _ rfl
      exact .answered f hg

theorem turn_enqueue (h : Orderly c) (id : Nat) : Turn c (.enqueue id) := by
  cases ht : c.task? id with
  | none =>
    apply Turn.idle
    · intro u hu he
      have hf := h.task?_eq hu
      rw [← Event.enqueue.inj he, ht] at hf
      cases hf
    · simp [step, Client.enqueue, ht]
  | some t =>
    obtain ⟨hm, rfl⟩ := mem_of_task? ht
    -- the event is about this task alone
    have hown : ∀ u ∈ c.tasks, u.id = t.id → u = t := fun u hu hi =>
      eq_of_nodup_map h.ids hu hm hi
    have hidle (hn : ¬ c.Admits t) (hs : c.enqueue t.id = c) : Turn c (.enqueue t.id) := by
      apply Turn.idle
      · intro u hu he
        rw [hown u hu (Event.enqueue.inj he).symm]
        exact hn
      · rw [step, hs]
    by_cases hp : t.phase = .unsent
    · rcases Bool.eq_false_or_eq_true c.shut with hc | hc
      · apply turn_update c c t.id (fun t => { t with phase := .refused }) (.inr rfl) rfl
        · exact enqueue_barred ht hp hc
        · intro u hu hi
          obtain rfl := hown u hu hi
          exact .barred hp hc
      · by_cases hq : c.queue.length < capacity
        · apply turn_update c { c with queue := c.queue ++ [(t.work, t.id)] } t.id
            (fun t => { t with phase := .queued }) (.inr rfl) rfl
          · exact enqueue_queued ht hp hc hq
          · intro u hu hi
            obtain rfl := hown u hu hi
            exact .queued ⟨hp, hc, hq⟩
        · exact hidle (fun ha => hq ha.room) (by simp [Client.enqueue, ht, hp, hc, hq])
    · exact hidle (fun ha => hp ha.phase) (by simp [Client.enqueue, ht, hp])

theorem turn_write (c : Client) : Turn c .write := by
  cases hq : c.queue with
  | nil => exact .still rfl (by simp [step, Client.write, hq])
  | cons w rest =>
    obtain ⟨work, id⟩ := w
    cases work with
    | frame f =>
      apply turn_update c { c with queue := rest, written := c.written ++ [f] } id
        (fun t => { t with phase := .written }) (.inl rfl) rfl
      · simp [step, Client.write, hq]
      · rintro t _ rfl
        exact .written hq
    | shutdown =>
      refine .stays (fun t =>
        if t.id = id then { t with phase := .written }
        else if rest.any fun w => w.2 == t.id then { t with phase := .refused }
        else t) none ?_ (by simp) ?_
      · intro t ht
        split
        · rename_i hi
          exact .written (hi ▸ hq)
        · split
          · rename_i hr
            obtain ⟨v, hv, hi⟩ := List.any_eq_true.mp hr
            exact .missed hq (beq_iff_eq.mp hi ▸ List.mem_map_of_mem hv)
          · exact .other rfl t
      · simp [step, Client.write, hq]
        exact holders_mapTasks _ _

theorem turn_failWrite (c : Client) (fault : WriteFault) : Turn c (.failWrite fault) := by
  cases hq : c.queue with
  | nil => exact .still rfl (by simp [step, Client.failWrite, hq])
  | cons w rest =>
    obtain ⟨work, id⟩ := w
    cases work with
    | frame f =>
      apply turn_update c { c with queue := rest } id
        (fun t => { t with phase := .refused, fault := some fault }) (.inl rfl) rfl
      · simp [step, Client.failWrite, hq]
      · rintro t _ rfl
        exact .failed fault hq
    | shutdown => exact .still rfl (by simp [step, Client.failWrite, hq])

theorem turn_dropCursor (h : Exclusive c) (token : UInt64) : Turn c (.dropCursor token) := by
  cases hk : c.cursor? token with
  | none => exact .still rfl (by simp [step, Client.dropCursor, hk])
  | some k =>
    obtain rfl := token_of_cursor? hk
    refine .passes .drop (holders_take h.cursors (mem_of_cursor? hk)) ?_
    simp [step, Client.dropCursor, hk]

theorem turn_stopDropped (c : Client) (token : UInt64) : Turn c (.stopDropped token) := by
  by_cases ht : token ∈ c.stopping
  · cases hc : c.closed with
    | true =>
      refine .passes (.forget hc) (holders_tell ht) ?_
      rw [step, stopDropped_closed hc ht]
      rfl
    | false =>
      refine .passes (.tell hc) (holders_tell ht) ?_
      rw [step, stopDropped_tell hc ht, tellStop, holders_spawn]
      rfl
  · exact .still rfl (by simp [step, Client.stopDropped, ht])

theorem turn_cancel (h : Exclusive c) (id : Nat) : Turn c (.cancel id) := by
  cases ht : c.task? id with
  | none => exact .still rfl (by simp [step, Client.cancel, ht])
  | some t =>
    obtain ⟨hm, rfl⟩ := mem_of_task? ht
    have hd := holders_dismiss h.orderly.ids hm
    by_cases hp : t.purpose = .abandon
    · exact .still rfl (by simp [step, Client.cancel, ht, hp])
    · refine .passes (.cancel hp) hd ?_
      cases hu : t.purpose <;> simp_all [step, Client.cancel, Purpose.leaves]

theorem holders_finishRun (c : Client) (id : Nat) (r : Except Error Result) :
    (∃ k, r = .ok (.cursor k) ∧ (c.finishRun id r).holders = .cursor k ::ₘ c.holders) ∨
      (c.finishRun id r).holders = c.holders := by
  unfold finishRun
  split
  · exact .inl ⟨_, rfl, by simp⟩
  · exact .inr rfl
  · exact .inr rfl

theorem holders_proceed (c : Client) {f : Frame} (a : Answer) (ha : t.purpose.awaits = true) :
    ∃ o, Concluded c.closed t f a o ∧ (c.proceed t.id t.purpose f.token a).holders =
      (o.toList : Multiset Holder) + c.holders := by
  unfold proceed
  cases hp : t.purpose with
  | run =>
    rcases holders_finishRun c t.id (a.result f.token) with ⟨k, hk, hh⟩ | hh
    · exact ⟨_, .started hp hk, hh⟩
    · exact ⟨_, .ended (.inl hp), by simpa using hh⟩
  | noreplyWait => exact ⟨_, .ended (.inr (.inl hp)), by simp⟩
  | serverInfo => exact ⟨_, .ended (.inr (.inr hp)), by simp⟩
  | next k =>
    cases hr : k.receive a with
    | mk j error =>
      cases error with
      | none =>
        obtain ⟨h, hj, hh⟩ := holders_advance c t.id j
        exact ⟨_, .next hp hr hj, by simpa [hr] using hh⟩
      | some e => exact ⟨_, .failedNext hp hr, by simp [hr]⟩
  | collect k rows =>
    cases hr : k.receive a with
    | mk j error =>
      cases error with
      | none =>
        obtain ⟨o, ho, hh⟩ := holders_gather c t.id j rows
        exact ⟨_, .collect hp hr ho, by simpa [hr] using hh⟩
      | some e => exact ⟨_, .failedCollect hp hr, by simp [hr]⟩
  | silent => simp [hp, Purpose.awaits] at ha
  | stop k => simp [hp, Purpose.awaits] at ha
  | abandon => simp [hp, Purpose.awaits] at ha
  | close => simp [hp, Purpose.awaits] at ha

theorem turn_resume (h : Exclusive c) (id : Nat) : Turn c (.resume id) := by
  cases ht : c.task? id with
  | none => exact .still rfl (by simp [step, Client.resume, ht])
  | some t =>
    obtain ⟨hm, rfl⟩ := mem_of_task? ht
    have hd := holders_dismiss h.orderly.ids hm
    have hs : c.step (.resume t.id) = c.resume t.id := rfl
    unfold Client.resume at hs
    rw [ht] at hs
    dsimp only at hs
    split at hs
    · rename_i hp
      refine .passes (.refuse hp) hd ?_
      rw [hs, Client.refuse]
      cases hu : t.purpose <;> simp [Purpose.leaves]
    · rename_i hp ha
      refine .passes (.complete hp ha) hd ?_
      rw [hs, Client.complete]
      cases hu : t.purpose <;> simp_all [Purpose.leaves, Purpose.awaits]
    · rename_i f a hp ha hf hn
      obtain ⟨o, ho, hh⟩ := holders_proceed (c.dismiss t) a ha
      rw [closed_dismiss] at ho
      refine .passes (.conclude hp hf hn ho) hd ?_
      rw [hs]
      exact hh
    · exact .still rfl (by rw [hs])

theorem turn_step (h : Exclusive c) (e : Event) : Turn c e := by
  cases e with
  | call call =>
    cases call with
    | run q o => exact turn_run c q o
    | noreplyWait =>
      exact turn_request (d := { c with begun := c.begun + 1 }.issue.2) rfl rfl rfl
        fun hc => .noreplyWait hc
    | serverInfo =>
      exact turn_request (d := { c with begun := c.begun + 1 }.issue.2) rfl rfl rfl
        fun hc => .serverInfo hc
    | next token => exact turn_next h token
    | collect token => exact turn_collect h token
    | stop token => exact turn_stop h token
    | close => exact turn_close c
  | dropCursor token => exact turn_dropCursor h token
  | useDb name => exact .still rfl rfl
  | cancel id => exact turn_cancel h id
  | stopDropped token => exact turn_stopDropped c token
  | enqueue id => exact turn_enqueue h.orderly id
  | write => exact turn_write c
  | failWrite fault => exact turn_failWrite c fault
  | receive f => exact turn_receive c f
  | endOfStream => exact turn_endOfStream c
  | resume id => exact turn_resume h id

end Client

end ReqlDriver
