import ReqlDriver.Proofs.Connection.Delivery
import ReqlDriver.Proofs.Connection.Logs
import ReqlDriver.Proofs.Connection.Shutdown

namespace ReqlDriver.Client

inductive Poses (c : Client) : Call → Purpose → Frame → Client → Prop
  | run {q : Term} {o : Options} : o.noreply = false →
      Poses c (.run q o) .run (Frame.start c.issue.1 q (o.entries c.db))
        { c with begun := c.begun + 1 }.issue.2
  | noreplyWait : Poses c .noreplyWait .noreplyWait (Frame.control c.issue.1 .noreplyWait)
      { c with begun := c.begun + 1 }.issue.2
  | serverInfo : Poses c .serverInfo .serverInfo (Frame.control c.issue.1 .serverInfo)
      { c with begun := c.begun + 1 }.issue.2
  | next {k : Cursor} : c.cursor? k.token = some k → k.buffer = [] → k.exhausted = false →
      Poses c (.next k.token) (.next k) (Frame.control k.token .fetch) (c.taken k.token)
  | collect {k : Cursor} : c.cursor? k.token = some k → k.exhausted = false →
      Poses c (.collect k.token) (.collect { k with buffer := [] } k.buffer)
        (Frame.control k.token .fetch) (c.taken k.token)

inductive Own (id : Nat) (g : Frame) : Event → Prop
  | enqueue : Own id g (.enqueue id)
  | write : Own id g .write
  | receive : Own id g (.receive g)
  | resume : Own id g (.resume id)

structure Clear (c : Client) (id : Nat) (token : UInt64) : Prop where
  free : ∀ t ∈ c.tasks, t.id ≠ id
  unused : token ∉ c.waiters.pending.map (·.1)
  opened : c.closed = false
  shut : c.shut = false
  frames : ∀ w ∈ c.queue, w.1 ≠ .shutdown ∧ w.2 ≠ id

def tabled (w : Waiters) (t : Task) (token : UInt64) : Waiters :=
  match t.answer with
  | none => { w with pending := (token, t.id) :: w.pending }
  | some _ => w

def under (c : Client) (t : Task) (token : UInt64) : Client :=
  { c with waiters := tabled c.waiters t token }.spawn t

def lineUp (c : Client) (w : Work × Nat) : Client := { c with queue := c.queue ++ [w] }

/-- How far a request has come, on a connection that is as another will be once its queue is
written. -/
inductive Underway (d : Client) (id : Nat) (p : Purpose) (f : Frame) (a : Answer) : Client → Prop
  | unsent {c : Client} {answer : Option Answer} : Clear c id f.token → c.flushed = d →
      answer = none ∨ answer = some a →
      Underway d id p f a (c.under ⟨id, p, .frame f, .unsent, answer, none⟩ f.token)
  | queued {c : Client} {answer : Option Answer} : Clear c id f.token → c.flushed = d →
      answer = none ∨ answer = some a →
      Underway d id p f a
        ((c.lineUp (.frame f, id)).under ⟨id, p, .frame f, .queued, answer, none⟩ f.token)
  | written {answer : Option Answer} : Clear d id f.token → d.queue = [] →
      answer = none ∨ answer = some a →
      Underway d id p f a ((d.sent f).under ⟨id, p, .frame f, .written, answer, none⟩ f.token)
  | ended : Clear d id f.token → d.queue = [] →
      Underway d id p f a ((d.sent f).proceed id p f.token a)

variable {c d base : Client} {call : Call} {e : Event} {err : Error} {events : List Event}
  {id : Nat} {p : Purpose} {f g : Frame} {a : Answer} {t : Task} {token : UInt64}

theorem Clear.ready (h : Clear c id token) (hq : c.queue = []) : Ready c id token :=
  ⟨h.free, h.unused, h.opened, h.shut, hq⟩

theorem flushed_of_nil (hq : c.queue = []) : c.flushed = c := by
  simp [flushed, hq, after]

theorem receive_of_unused (h : f.token ∉ c.waiters.pending.map (·.1)) : c.receive f = c := by
  have hd := Waiters.dispatch_of_not_mem h
  simp only [receive, hd]
  rfl

theorem task?_under (free : ∀ u ∈ c.tasks, u.id ≠ t.id) : (c.under t token).task? t.id = some t :=
  task?_spawn (c := { c with waiters := tabled c.waiters t token }) free

theorem updateTask_under (free : ∀ u ∈ c.tasks, u.id ≠ t.id) (phase : Phase) :
    (c.under t token).updateTask t.id (fun u => { u with phase := phase }) =
      c.under { t with phase := phase } token :=
  updateTask_spawn (c := { c with waiters := tabled c.waiters t token }) free _

theorem receive_under (free : ∀ u ∈ c.tasks, u.id ≠ t.id)
    (unused : token ∉ c.waiters.pending.map (·.1)) (hg : g.token = token)
    (ha : t.answer = none ∨ t.answer = some g.answer) :
    (c.under t token).receive g = c.under { t with answer := some g.answer } token := by
  subst hg
  rcases ha with ha | ha
  · have hu : c.under t g.token = c.entered t g.token := by simp only [under, tabled, ha, entered]
    rw [hu]
    exact receive_entered free unused
  · have ht : { t with answer := some g.answer } = t := by rw [← ha]
    have hu : c.under t g.token = c.spawn t := by simp only [under, tabled, ha]
    rw [ht, hu]
    exact receive_of_unused unused

theorem Clear.head (h : Clear c id token) {w : Work × Nat} {rest : List (Work × Nat)}
    (hq : c.queue = w :: rest) : ∃ g i, w = (.frame g, i) ∧ id ≠ i := by
  obtain ⟨work, i⟩ := w
  obtain ⟨hw, hi⟩ := h.frames _ (hq ▸ List.mem_cons_self)
  cases work with
  | shutdown => exact absurd rfl hw
  | frame g => exact ⟨g, i, rfl, Ne.symm hi⟩

theorem Clear.write_under (h : Clear c t.id token) {w : Work × Nat} {rest more : List (Work × Nat)}
    (hq : c.queue = w :: rest) :
    ({ c with queue := c.queue ++ more }.under t token).write =
      { c.write with queue := c.write.queue ++ more }.under t token := by
  obtain ⟨g, i, rfl, hne⟩ := h.head hq
  simp [Client.write, under, hq, Client.spawn, updateTask, hne]

theorem Clear.queue_write (h : Clear c id token) : c.write.queue = c.queue.tail := by
  cases hq : c.queue with
  | nil => rw [write_of_nil hq, hq, List.tail_nil]
  | cons w rest =>
    obtain ⟨g, i, rfl, -⟩ := h.head hq
    rw [write_frame hq]
    rfl

theorem Clear.write (h : Clear c id token) : Clear c.write id token := by
  cases hq : c.queue with
  | nil => rwa [write_of_nil hq]
  | cons w rest =>
    obtain ⟨g, i, rfl, -⟩ := h.head hq
    rw [write_frame hq]
    refine ⟨?_, h.unused, h.opened, h.shut, ?_⟩
    · intro t ht
      obtain ⟨u, hu, rfl⟩ := List.mem_map.mp ht
      split <;> exact h.free u hu
    · exact fun w hw => h.frames w (hq ▸ List.mem_cons_of_mem _ hw)

theorem Clear.flushed_write (h : Clear c id token) : c.write.flushed = c.flushed := by
  cases hq : c.queue with
  | nil => rw [write_of_nil hq]
  | cons w rest =>
    have hw : c.write.queue = rest := by rw [h.queue_write, hq, List.tail_cons]
    simp only [flushed, hw, hq, List.length_cons, List.replicate_succ]
    rfl

theorem Clear.sent (h : Clear c id token) (g : Frame) : Clear (c.sent g) id token :=
  ⟨h.free, h.unused, h.opened, h.shut, h.frames⟩

theorem Clear.relinquish (h : Clear c id token) (err : Error) (p : Purpose) :
    Clear (c.relinquish err p) id token ∧ (c.relinquish err p).queue = c.queue := by
  unfold Client.relinquish
  split
  · exact ⟨⟨h.free, h.unused, h.opened, h.shut, h.frames⟩, rfl⟩
  · unfold abandon
    split
    · exact ⟨h, rfl⟩
    · exact ⟨⟨h.free, h.unused, h.opened, h.shut, h.frames⟩, rfl⟩
  · exact ⟨h, rfl⟩

theorem Clear.own_step (h : Clear c id g.token) (hq : c.queue = []) (ho : Own id g e) :
    c.step e = c := by
  cases ho with
  | enqueue => exact enqueue_of_none (task?_eq_none h.free)
  | write => exact write_of_nil hq
  | receive => exact receive_of_unused h.unused
  | resume => exact resume_of_none (task?_eq_none h.free)

theorem Clear.enqueue_under (h : Clear c t.id token) (hp : t.phase = .unsent)
    (hl : c.queue.length < capacity) : (c.under t token).enqueue t.id =
      (c.lineUp (t.work, t.id)).under { t with phase := .queued } token := by
  rw [enqueue_queued (task?_under h.free) hp h.shut hl]
  exact updateTask_under (c := c.lineUp (t.work, t.id)) h.free _

theorem Underway.unsent_step {answer : Option Answer} (h : Clear c id f.token)
    (hd : c.flushed = d) (ha : answer = none ∨ answer = some g.answer) (hg : g.token = f.token)
    (hp : p.awaits = true) (ho : Own id g e) : Underway d id p f g.answer
      ((c.under ⟨id, p, .frame f, .unsent, answer, none⟩ f.token).step e) := by
  let t : Task := ⟨id, p, .frame f, .unsent, answer, none⟩
  have ht : (c.under t f.token).task? id = some t := task?_under h.free
  have hsame : Underway d id p f g.answer (c.under t f.token) := .unsent h hd ha
  cases ho with
  | enqueue =>
    by_cases hl : c.queue.length < capacity
    · have hs : (c.under t f.token).enqueue id = _ := h.enqueue_under rfl hl
      rw [Client.step, hs]
      exact .queued h hd ha
    · have hs : (c.under t f.token).enqueue id = _ := enqueue_of_full hl h.shut
      rwa [Client.step, hs]
  | write =>
    cases hq : c.queue with
    | nil =>
      have hs : (c.under t f.token).write = _ := write_of_nil hq
      rwa [Client.step, hs]
    | cons w rest =>
      have hs : ({ c with queue := c.queue ++ [] }.under t f.token).write = _ :=
        h.write_under (t := t) hq
      rw [List.append_nil, List.append_nil] at hs
      rw [Client.step, hs]
      exact .unsent h.write (h.flushed_write.trans hd) ha
  | receive =>
    have hs : (c.under t f.token).receive g = _ := receive_under h.free h.unused hg ha
    rw [Client.step, hs]
    exact .unsent h hd (.inr rfl)
  | resume => rwa [Client.step, resume_of_waiting ht hp (by simp [t]) (by simp [t])]

theorem Underway.queued_step {answer : Option Answer} (h : Clear c id f.token)
    (hd : c.flushed = d) (ha : answer = none ∨ answer = some g.answer) (hg : g.token = f.token)
    (hp : p.awaits = true) (ho : Own id g e) : Underway d id p f g.answer
      (((c.lineUp (.frame f, id)).under ⟨id, p, .frame f, .queued, answer, none⟩ f.token).step
        e) := by
  let t : Task := ⟨id, p, .frame f, .queued, answer, none⟩
  let b := c.lineUp (.frame f, id)
  have ht : (b.under t f.token).task? id = some t := task?_under (c := b) h.free
  have hsame : Underway d id p f g.answer (b.under t f.token) := .queued h hd ha
  cases ho with
  | enqueue => rwa [Client.step, enqueue_of_sent ht (by simp [t])]
  | write =>
    cases hq : c.queue with
    | nil =>
      have hb : b.queue = [(.frame f, id)] := by simp [b, lineUp, hq]
      have hc : { c with queue := [] } = c := by rw [← hq]
      have hs : (b.under t f.token).write =
          ({ c with queue := [] }.sent f).under { t with phase := .written } f.token := by
        rw [write_frame (c := b.under t f.token) hb]
        exact updateTask_under (c := { c with queue := [] }.sent f) (t := t) h.free .written
      rw [flushed_of_nil hq] at hd
      subst hd
      rw [Client.step, hs, hc]
      exact .written h hq ha
    | cons w rest =>
      have hs : (b.under t f.token).write = _ := h.write_under (t := t) hq
      rw [Client.step, hs]
      exact .queued h.write (h.flushed_write.trans hd) ha
  | receive =>
    have hs : (b.under t f.token).receive g = _ :=
      receive_under (c := b) h.free h.unused hg ha
    rw [Client.step, hs]
    exact .queued h hd (.inr rfl)
  | resume => rwa [Client.step, resume_of_waiting ht hp (by simp [t]) (by simp [t])]

theorem Underway.written_step {answer : Option Answer} (h : Clear d id f.token)
    (hq : d.queue = []) (ha : answer = none ∨ answer = some g.answer) (hg : g.token = f.token)
    (hp : p.awaits = true) (ho : Own id g e) : Underway d id p f g.answer
      (((d.sent f).under ⟨id, p, .frame f, .written, answer, none⟩ f.token).step e) := by
  let t : Task := ⟨id, p, .frame f, .written, answer, none⟩
  let b := d.sent f
  have ht : (b.under t f.token).task? id = some t := task?_under (c := b) h.free
  have hsame : Underway d id p f g.answer (b.under t f.token) := .written h hq ha
  cases ho with
  | enqueue => rwa [Client.step, enqueue_of_sent ht (by simp [t])]
  | write =>
    have hs : (b.under t f.token).write = _ := write_of_nil hq
    rwa [Client.step, hs]
  | receive =>
    have hs : (b.under t f.token).receive g = _ :=
      receive_under (c := b) h.free h.unused hg ha
    rw [Client.step, hs]
    exact .written h hq (.inr rfl)
  | resume =>
    rcases ha with rfl | rfl
    · rwa [Client.step, resume_of_waiting ht hp (by simp [t]) fun _ => rfl]
    · have hs : (b.spawn t).resume id = b.proceed id p f.token g.answer :=
        resume_spawn (t := t) ((h.sent f).ready hq) rfl rfl hp rfl
      rw [Client.step]
      exact hs ▸ .ended h hq

theorem Underway.step (h : Underway d id p f g.answer c) (hp : p.awaits = true)
    (hr : g.answer.accepted p.codes p.fault = .error err) (hg : g.token = f.token)
    (ho : Own id g e) : Underway d id p f g.answer (c.step e) := by
  cases h with
  | unsent h hd ha => exact unsent_step h hd ha hg hp ho
  | queued h hd ha => exact queued_step h hd ha hg hp ho
  | written h hq ha => exact written_step h hq ha hg hp ho
  | ended h hq =>
    have hs : ((d.sent f).proceed id p f.token g.answer).step e =
        (d.sent f).proceed id p f.token g.answer := by
      rw [proceed_refused hp hr]
      obtain ⟨hc, hcq⟩ := (h.sent f).relinquish err p
      have hc : Clear (((d.sent f).relinquish err p).finish id (.error err)) id g.token :=
        hg ▸ ⟨hc.free, hc.unused, hc.opened, hc.shut, hc.frames⟩
      exact hc.own_step (hcq.trans hq) ho
    rw [hs]
    exact .ended h hq

theorem Underway.after (h : Underway d id p f g.answer c) (hp : p.awaits = true)
    (hr : g.answer.accepted p.codes p.fault = .error err) (hg : g.token = f.token)
    (ho : ∀ e ∈ events, Own id g e) : Underway d id p f g.answer (c.after events) := by
  induction events generalizing c with
  | nil => exact h
  | cons e r ih =>
    obtain ⟨he, hr'⟩ := List.forall_mem_cons.mp ho
    exact ih (h.step hp hr hg he) hr'

theorem Poses.awaits (h : Poses c call p f base) : p.awaits = true := by
  cases h <;> rfl

theorem Poses.clear (h : Poses c call p f base) (hr : Recorded c) (opened : c.closed = false)
    (unused : f.token ∉ c.waiters.pending.map (·.1)) : Clear base c.begun f.token := by
  have hs := hr.orderly.sending opened
  have hfree : ∀ t ∈ c.tasks, t.id ≠ c.begun := fun t ht => Nat.ne_of_lt (hr.orderly.begun t ht)
  have hframes : ∀ w ∈ c.queue, w.1 ≠ .shutdown ∧ w.2 ≠ c.begun :=
    fun w hw => ⟨hs.queue w hw, Nat.ne_of_lt (hr.queue w hw)⟩
  cases h <;> exact ⟨hfree, unused, opened, hs.shut, hframes⟩

theorem Poses.step_ok (h : Poses c call p f base) (opened : c.closed = false)
    (hr : base.request c.begun p f = .ok d) : c.step (.call call) = d := by
  have hfail : base.requestOrFail c.begun p f = d := by simp only [requestOrFail, hr]
  cases h with
  | run ho =>
    exact (beginRun_request (c := { c with begun := c.begun + 1 }) opened _ ho).trans hfail
  | noreplyWait | serverInfo => exact hfail
  | next hk hb he => exact (call_next hk).trans (advance_fetch (c.taken _) _ hb he hr)
  | collect hk he => exact (call_collect hk).trans (gather_fetch (c.taken _) _ [] he hr)

theorem Poses.step_error (h : Poses c call p f base) (opened : c.closed = false)
    (hr : base.request c.begun p f = .error err) : ∃ d : Client,
      c.step (.call call) = d.finish c.begun (.error err) ∧ d.tasks = c.tasks ∧
        d.finished = c.finished := by
  have hfail : base.requestOrFail c.begun p f = base.finish c.begun (.error err) := by
    simp only [requestOrFail, hr]
  cases h with
  | run ho =>
    exact ⟨_, (beginRun_request (c := { c with begun := c.begun + 1 }) opened _ ho).trans hfail,
      rfl, rfl⟩
  | noreplyWait | serverInfo => exact ⟨_, hfail, rfl, rfl⟩
  | next hk hb he =>
    exact ⟨_, (call_next hk).trans (advance_refused (c.taken _) _ hb he hr), rfl, rfl⟩
  | collect hk he =>
    refine ⟨_, (call_collect hk).trans (gather_refused (c.taken _) _ [] he hr), ?_, ?_⟩
    · exact tasks_abandon _ _
    · exact finished_abandon _ _

theorem Poses.waiters (h : Poses c call p f base) : base.waiters = c.waiters := by
  cases h <;> rfl

theorem own_of_ended (free : ∀ t ∈ c.tasks, t.id ≠ id) (ho : Own id g e) :
    (c.step e).finished = c.finished ∧ ∀ t ∈ (c.step e).tasks, t.id ≠ id := by
  have hn := task?_eq_none free
  have hmarked (ht : Turn c e) (hb : ∀ u, ¬ Begins c e u) (hp : ∀ h o, ¬ Passes c e h o) :
      ∀ u ∈ (c.step e).tasks, u.id ≠ id := by
    intro u hu
    rcases ht.source hu with ⟨t, ht, hm⟩ | hbegins | ⟨h, -, hpasses⟩
    · exact hm.id_eq ▸ free t ht
    · exact absurd hbegins (hb u)
    · exact absurd hpasses (hp _ _)
  cases ho with
  | enqueue =>
    rw [Client.step, enqueue_of_none hn]
    exact ⟨rfl, free⟩
  | resume =>
    rw [Client.step, resume_of_none hn]
    exact ⟨rfl, free⟩
  | write =>
    refine ⟨(step_inner c rfl).1, hmarked (turn_write c) ?_ ?_⟩
    · rintro u ⟨⟩
    · rintro h o ⟨⟩
  | receive =>
    refine ⟨(step_inner c rfl).1, hmarked (turn_receive c g) ?_ ?_⟩
    · rintro u ⟨⟩
    · rintro h o ⟨⟩

theorem finished_of_ended (free : ∀ t ∈ c.tasks, t.id ≠ id) (ho : ∀ e ∈ events, Own id g e) :
    (c.after events).finished = c.finished := by
  induction events generalizing c with
  | nil => rfl
  | cons e r ih =>
    obtain ⟨he, hr⟩ := List.forall_mem_cons.mp ho
    obtain ⟨hf, hfree⟩ := own_of_ended free he
    exact (ih hfree hr).trans hf

theorem Poses.begins (h : Poses c call p f base) (hr : Recorded c) (opened : c.closed = false)
    (refused : g.answer.accepted p.codes p.fault = .error err)
    (own : ∀ e ∈ events, Own c.begun g e)
    (ended : (c.begun, .error err) ∈ ((c.step (.call call)).after events).finished) :
    f.token ∉ c.waiters.pending.map (·.1) ∧
      c.step (.call call) = base.under ⟨c.begun, p, .frame f, .unsent, none, none⟩ f.token := by
  have hbase : base.closed = false := by
    rw [closed, h.waiters]
    exact opened
  by_cases hm : f.token ∈ c.waiters.pending.map (·.1)
  · -- the call has ended at once, with an error that no answer brings
    have hused : base.request c.begun p f = .error _ :=
      request_eq_error_iff.mpr (Waiters.register_eq_error_iff.mpr
        (.inr ⟨hbase, h.waiters.symm ▸ hm, rfl⟩))
    obtain ⟨d, hd, ht, hf⟩ := h.step_error opened hused
    have hfree : ∀ t ∈ (d.finish c.begun (.error (.protocol (.tokenInUse f.token.toNat)))).tasks,
        t.id ≠ c.begun :=
      fun t hm => Nat.ne_of_lt (hr.orderly.begun t (ht ▸ hm))
    rw [hd, finished_of_ended hfree own, finish, hf] at ended
    rcases List.mem_append.mp ended with hold | hnew
    · exact absurd (hr.finished _ hold) (Nat.lt_irrefl _)
    · have hfair := g.fair_answer.accepted err refused
      cases List.mem_singleton.mp hnew
      cases hfair
  · refine ⟨hm, ?_⟩
    exact h.step_ok opened (request_eq_ok_iff.mpr ⟨hbase, h.waiters.symm ▸ hm, rfl⟩)

theorem Poses.orderly (h : Poses c call p f base) (ho : Orderly c) : Orderly base := by
  cases h with
  | run | noreplyWait | serverInfo => exact ho.begin.issue
  | next | collect => exact ho.begin.take _

theorem finished_flushed (c : Client) : c.flushed.finished = c.finished := by
  unfold flushed
  generalize c.queue.length = n
  induction n generalizing c with
  | zero => rfl
  | succ n ih => exact (ih c.write).trans (step_inner c (e := .write) rfl).1

theorem Underway.ended_of_finished (h : Underway d id p f a c)
    (hp : a.accepted p.codes p.fault = .error err) (ha : p.awaits = true)
    (hd : (id, .error err) ∉ d.finished) (hc : (id, .error err) ∈ c.finished) :
    c = ((d.sent f).relinquish err p).finish id (.error err) := by
  cases h with
  | unsent _ hf => exact absurd (by rw [← hf, finished_flushed]; exact hc) hd
  | queued _ hf => exact absurd (by rw [← hf, finished_flushed]; exact hc) hd
  | written => exact absurd hc hd
  | ended => exact proceed_refused ha hp _ _ _

theorem Poses.ended (h : Poses c call p f base) (hr : Recorded c) (opened : c.closed = false)
    (token : g.token = f.token) (refused : g.answer.accepted p.codes p.fault = .error err)
    (own : ∀ e ∈ events, Own c.begun g e)
    (ended : (c.begun, .error err) ∈ ((c.step (.call call)).after events).finished) :
    f.token ∉ c.waiters.pending.map (·.1) ∧ (c.step (.call call)).after events =
      ((base.flushed.sent f).relinquish err p).finish c.begun (.error err) := by
  obtain ⟨unused, hs⟩ := h.begins hr opened refused own ended
  refine ⟨unused, ?_⟩
  have hstart : Underway base.flushed c.begun p f g.answer (c.step (.call call)) := by
    rw [hs]
    exact .unsent (h.clear hr opened unused) rfl (.inl rfl)
  apply (hstart.after h.awaits refused token own).ended_of_finished refused h.awaits _ ended
  intro hm
  have hf : base.finished = c.finished := by cases h <;> rfl
  rw [finished_flushed, hf] at hm
  exact absurd (hr.finished _ hm) (Nat.lt_irrefl _)

theorem relinquish_sent (c : Client) (f : Frame) (err : Error) (p : Purpose) :
    (c.sent f).relinquish err p = (c.relinquish err p).sent f := by
  unfold relinquish
  split
  · rfl
  · unfold abandon
    split <;> rfl
  · rfl

theorem isQueryError_of_accepted {codes : List Nat} {fault : ResponseType → ProtocolFault}
    (h : g.answer.accepted codes fault = .error err) : err.isQueryError = true ↔
      Response.code? g.payload ∈ [some 16, some 17, some 18] := by
  rw [← Response.isSome_reported?]
  cases hv : Response.reported? g.payload with
  | some e =>
    cases h.symm.trans (Frame.accepted_reported hv)
    simp [Response.isQueryError_reported hv]
  | none =>
    have hn : ∀ r, Response.ofJson g.payload = .ok r → r.type.code ∉ codes := by
      intro r hr hc
      cases h.symm.trans (Frame.accepted_taken hv hr hc)
    obtain ⟨cause, hc⟩ := Frame.accepted_other fault hv hn
    cases h.symm.trans hc
    simp [Error.isQueryError]

theorem Poses.same (h : Poses c call p f base) : base.db = c.db ∧
    base.issued = (if p.cursor?.isSome then c.issued else c.issued + 1) ∧
    base.finished = c.finished := by
  cases h <;> exact ⟨rfl, rfl, rfl⟩

theorem cursor?_relinquish (h : Poses c call p f base) (hd : d.cursors = base.cursors)
    (err : Error) (ht : ∀ k, p.cursor? = some k → k.token ≠ token) :
    (d.relinquish err p).cursor? token = c.cursor? token := by
  have hbase : d.cursor? token = base.cursor? token := by rw [cursor?, hd, cursor?]
  cases h with
  | run | noreplyWait | serverInfo => exact hbase
  | @next k =>
    have hk := ht _ rfl
    have hh : (d.hold { k with exhausted := k.exhausted || err.isQueryError }).cursor? token =
        d.cursor? token := cursor?_hold_ne d hk
    exact hh.trans (hbase.trans (cursor?_take_ne _ hk))
  | collect =>
    have hk := ht _ rfl
    have ha (k : Cursor) : (d.abandon k).cursor? token = d.cursor? token := by
      unfold abandon
      split <;> rfl
    exact (ha _).trans (hbase.trans (cursor?_take_ne _ hk))

theorem after_of_records {written : List Frame} {finished : Ended}
    (h : d = { c with written := written, finished := finished }) (events : List Event) :
    ∃ x : Client, c.after events = x.behind c.written c.finished ∧
      d.after events = x.behind d.written d.finished := by
  let bare : Client := { c with written := [], finished := [] }
  have hc : c = bare.behind c.written c.finished := by simp [bare, behind]
  have hd : d = bare.behind d.written d.finished := by simp [bare, behind, h]
  refine ⟨bare.after events, ?_, ?_⟩
  · conv => lhs; rw [hc]
    exact after_behind bare events
  · conv => lhs; rw [hd]
    exact after_behind bare events

/-- What a connection is after a call that has failed. It goes on in the same way as one that has
been spared the call and differs from it in its records only. -/
structure Undisturbed (c : Client) (p : Purpose) (f g : Frame) (err : Error)
    (spared d : Client) : Prop where
  finished : d.finished = c.finished ++ [(c.begun, .error err)]
  closed : d.closed = false
  db : d.db = c.db
  waiters : d.waiters = c.waiters
  unused : f.token ∉ d.waiters.pending.map (·.1)
  issued : d.issued = if p.cursor?.isSome then c.issued else c.issued + 1
  others : ∀ token, (∀ k, p.cursor? = some k → k.token ≠ token) →
    d.cursor? token = c.cursor? token
  cursor : ∀ k, p = .next k → c.cursor? k.token = some k ∧
    d.cursor? k.token = some { k with exhausted := k.exhausted || err.isQueryError }
  reported : err.isQueryError = true ↔ Response.code? g.payload ∈ [some 16, some 17, some 18]
  later : ∀ events, ∃ x : Client, spared.after events = x.behind spared.written spared.finished ∧
    d.after events = x.behind d.written d.finished

/-- A call for which the server reports an error, or sends a response that the call is not for, or
something that is no response, leaves the connection as if it had not been made, but for the number
of the next token: what stood in the queue has been written, and the cursor that the call has had
in hand is back. -/
theorem failure_undisturbing (reachable : Reachable c) (opened : c.closed = false)
    (poses : Poses c call p f base) (token : g.token = f.token)
    (refused : g.answer.accepted p.codes p.fault = .error err)
    (own : ∀ e ∈ events, Own c.begun g e)
    (ended : (c.begun, .error err) ∈ ((c.step (.call call)).after events).finished) :
    Undisturbed c p f g err (base.flushed.relinquish err p)
      ((c.step (.call call)).after events) := by
  have hr := reachable.recorded
  obtain ⟨unused, hd⟩ := poses.ended hr opened token refused own ended
  have hopen : base.closed = false := by
    rw [Client.closed, poses.waiters]
    exact opened
  obtain ⟨tasks, written, hb⟩ := flushed_eq (poses.orderly hr.orderly) hopen
  obtain ⟨hdb, hissued, hfinished⟩ := poses.same
  obtain ⟨hsdb, hsw, hsi, hsf⟩ := relinquish_same base.flushed err p
  have hw : (base.flushed.relinquish err p).waiters = c.waiters := by
    rw [hsw, hb]
    exact poses.waiters
  have hcursors : base.flushed.cursors = base.cursors := by rw [hb]
  rw [hd, relinquish_sent]
  exact
    { finished := by
        rw [finish, sent, hsf, finished_flushed, hfinished]
      closed := by
        rw [← opened]
        exact congrArg Waiters.closed hw
      db := hsdb.trans (by rw [hb]; exact hdb)
      waiters := hw
      unused := by
        have hn := unused
        rw [← hw] at hn
        exact hn
      issued := hsi.trans (by rw [hb]; exact hissued)
      others := fun _ ht => cursor?_relinquish poses hcursors err ht
      cursor := by
        rintro k rfl
        cases poses with
        | next hk => exact ⟨hk, cursor?_hold _ _⟩
      reported := isQueryError_of_accepted refused
      later := after_of_records rfl }

theorem failure_undisturbing_of_fetch :
    let c := ({} : Client).after [.call (.run (.datum .null) {}), .enqueue 0, .write,
      .receive ⟨1, .array [.int 3, .array []]⟩, .resume 0, .call .serverInfo, .enqueue 1]
    let g : Frame := ⟨1, .array [.int 18, .array [.string "gone"]]⟩
    let events : List Event := [.write, .enqueue 2, .write, .receive g, .resume 2]
    let d := (c.step (.call (.next 1))).after events
    d.waiters = c.waiters ∧ c.waiters.pending = [(2, 1)] ∧ d.issued = c.issued ∧
      (d.cursor? 1).map Cursor.exhausted = some true := by
  intro c g events d
  have hc : Reachable c := ⟨none, _, rfl⟩
  let k : Cursor := ⟨1, [], false⟩
  have hk : c.cursor? k.token = some k := rfl
  have hown : ∀ e ∈ events, Own c.begun g e := by
    simp only [events, List.forall_mem_cons]
    exact ⟨.write, .enqueue, .write, .receive, .resume, List.forall_mem_nil _⟩
  have ended : (c.begun, .error (.runtime "gone" none none)) ∈ d.finished :=
    List.mem_of_getElem? (show _[1]? = _ from rfl)
  have h := failure_undisturbing hc rfl (.next hk rfl rfl) (g := g) rfl rfl hown ended
  refine ⟨h.waiters, rfl, h.issued, ?_⟩
  rw [(h.cursor k rfl).2]
  rfl

end ReqlDriver.Client
