import ReqlDriver.Connection.Client
import ReqlDriver.Proofs.Keys

namespace ReqlDriver

theorem Waiters.register_eq_error_iff {w : Waiters} {token : UInt64} {id : Nat} {e : Error} :
    w.register token id = .error e ↔ w.closed = true ∧ e = .connectionClosed ∨
      w.closed = false ∧ token ∈ w.pending.map (·.1) ∧
        e = .protocol (.tokenInUse token.toNat) := by
  unfold Waiters.register Waiters.get?
  cases w.closed with
  | true => simp [eq_comm]
  | false =>
    cases hl : w.pending.lookup token with
    | none =>
      have hn := lookup_eq_none_iff_not_mem.mp hl
      simp [hn]
    | some i =>
      have hm : token ∈ w.pending.map (·.1) := List.mem_map_of_mem (mem_of_lookup_eq_some hl)
      simp [hm, eq_comm]

namespace Client

variable {c : Client} {id : Nat}

theorem register_eq_ok_iff {w w' : Waiters} {token : UInt64} :
    w.register token id = .ok w' ↔ w.closed = false ∧ token ∉ w.pending.map (·.1) ∧
      w' = { w with pending := (token, id) :: w.pending } := by
  unfold Waiters.register Waiters.get?
  cases hc : w.closed with
  | true => simp
  | false =>
    cases hl : w.pending.lookup token with
    | none =>
      have hn := lookup_eq_none_iff_not_mem.mp hl
      simp [hn, eq_comm]
    | some i =>
      have hn : ¬ token ∉ w.pending.map (·.1) := by
        rw [← lookup_eq_none_iff_not_mem, hl]
        simp
      constructor
      · intro he
        cases he
      · rintro ⟨-, ho, -⟩
        exact absurd ho hn

theorem mem_of_cursor? {token : UInt64} {k : Cursor} (h : c.cursor? token = some k) :
    k ∈ c.cursors := List.mem_of_find?_eq_some h

theorem token_of_cursor? {token : UInt64} {k : Cursor} (h : c.cursor? token = some k) :
    k.token = token := by
  simpa using List.find?_some h

theorem mem_of_task? {t : Task} (h : c.task? id = some t) : t ∈ c.tasks ∧ t.id = id :=
  ⟨List.mem_of_find?_eq_some h, by simpa using List.find?_some h⟩

theorem call_next {token : UInt64} {k : Cursor} (h : c.cursor? token = some k) :
    c.call (.next token) = ({ c with begun := c.begun + 1 }.take token).advance c.begun k := by
  simp only [Client.call, h]

theorem call_collect {token : UInt64} {k : Cursor} (h : c.cursor? token = some k) :
    c.call (.collect token) = ({ c with begun := c.begun + 1 }.take token).gather c.begun k [] := by
  simp only [Client.call, h]

theorem call_stop {token : UInt64} {k : Cursor} (h : c.cursor? token = some k) :
    c.call (.stop token) = ({ c with begun := c.begun + 1 }.take token).beginStop c.begun k := by
  simp only [Client.call, h]

theorem dismiss_issued (c : Client) (t : Task) : (c.dismiss t).issued = c.issued := by
  unfold Client.dismiss
  split <;> rfl

theorem closed_answerAll (c : Client) (answers : List (Nat × Answer)) :
    (c.answerAll answers).closed = c.closed := by
  induction answers generalizing c with
  | nil => rfl
  | cons a r ih => exact ih _

theorem finished_answerAll (c : Client) (answers : List (Nat × Answer)) :
    (c.answerAll answers).finished = c.finished := by
  induction answers generalizing c with
  | nil => rfl
  | cons a r ih => exact ih _

theorem cursors_answerAll (c : Client) (answers : List (Nat × Answer)) :
    (c.answerAll answers).cursors = c.cursors := by
  induction answers generalizing c with
  | nil => rfl
  | cons a r ih => exact ih _

theorem closed_endOfStream (c : Client) : c.endOfStream.closed = true := by
  unfold Client.endOfStream
  exact closed_answerAll _ _

theorem finished_dismiss (c : Client) (t : Task) : (c.dismiss t).finished = c.finished := by
  unfold Client.dismiss
  split <;> rfl

theorem finished_abandon (c : Client) (k : Cursor) : (c.abandon k).finished = c.finished := by
  unfold abandon
  split <;> rfl

theorem request_eq_ok_iff {d : Client} {purpose : Purpose} {f : Frame} :
    c.request id purpose f = .ok d ↔ c.closed = false ∧ f.token ∉ c.waiters.pending.map (·.1) ∧
      d = { c with waiters := { c.waiters with
          pending := (f.token, id) :: c.waiters.pending } }.spawn
        { id, purpose, work := .frame f } := by
  unfold request
  constructor
  · intro h
    cases hw : c.waiters.register f.token id with
    | error e =>
      rw [hw] at h
      cases h
    | ok w =>
      rw [hw] at h
      obtain ⟨hc, hn, rfl⟩ := register_eq_ok_iff.mp hw
      exact ⟨hc, hn, (Except.ok.inj h).symm⟩
  · rintro ⟨hc, hn, rfl⟩
    rw [register_eq_ok_iff.mpr ⟨hc, hn, rfl⟩]
    rfl

theorem request_eq_error_iff {purpose : Purpose} {f : Frame} {e : Error} :
    c.request id purpose f = .error e ↔ c.waiters.register f.token id = .error e := by
  unfold request
  cases c.waiters.register f.token id <;> simp [Except.map]

theorem finished_request {d : Client} {purpose : Purpose} {f : Frame}
    (h : c.request id purpose f = .ok d) : d.finished = c.finished := by
  obtain ⟨-, -, rfl⟩ := request_eq_ok_iff.mp h
  rfl

theorem cursor?_hold (c : Client) (k : Cursor) : (c.hold k).cursor? k.token = some k := by
  simp [cursor?, hold]

theorem advance_row (c : Client) (id : Nat) {k : Cursor} {d : Datum} {r : List Datum}
    (hb : k.buffer = d :: r) :
    c.advance id k = (c.hold { k with buffer := r }).finish id (.ok (.row (some d))) := by
  simp only [Client.advance, Cursor.move, hb]

theorem advance_ended (c : Client) (id : Nat) {k : Cursor} (hb : k.buffer = [])
    (he : k.exhausted = true) : c.advance id k = (c.hold k).finish id (.ok (.row none)) := by
  simp only [Client.advance, Cursor.move, hb, he, if_true]

theorem advance_fetch (c : Client) (id : Nat) {k : Cursor} (hb : k.buffer = [])
    (he : k.exhausted = false) {c' : Client}
    (hr : c.request id (.next k) (Frame.control k.token .fetch) = .ok c') :
    c.advance id k = c' := by
  simp only [Client.advance, Cursor.move, hb, he, Bool.false_eq_true, if_false, hr]

theorem advance_refused (c : Client) (id : Nat) {k : Cursor} (hb : k.buffer = [])
    (he : k.exhausted = false) {e : Error}
    (hr : c.request id (.next k) (Frame.control k.token .fetch) = .error e) :
    c.advance id k = (c.hold k).finish id (.error e) := by
  simp only [Client.advance, Cursor.move, hb, he, Bool.false_eq_true, if_false, hr]

theorem gather_ended (c : Client) (id : Nat) {k : Cursor} (rows : List Datum)
    (he : k.exhausted = true) :
    c.gather id k rows = c.finish id (.ok (.rows (rows ++ k.buffer))) := by
  simp only [Client.gather, he, if_true]

theorem gather_fetch (c : Client) (id : Nat) {k : Cursor} (rows : List Datum)
    (he : k.exhausted = false) {c' : Client}
    (hr : c.request id (.collect { k with buffer := [] } (rows ++ k.buffer))
      (Frame.control k.token .fetch) = .ok c') : c.gather id k rows = c' := by
  simp only [he] at hr
  simp only [Client.gather, he, Bool.false_eq_true, if_false, hr]

theorem gather_refused (c : Client) (id : Nat) {k : Cursor} (rows : List Datum)
    (he : k.exhausted = false) {e : Error}
    (hr : c.request id (.collect { k with buffer := [] } (rows ++ k.buffer))
      (Frame.control k.token .fetch) = .error e) :
    c.gather id k rows = (c.abandon { k with buffer := [] }).finish id (.error e) := by
  simp only [he] at hr
  simp only [Client.gather, he, Bool.false_eq_true, if_false, hr]

theorem beginRun_closed (hc : c.closed = true) (q : Term) (o : Options) :
    c.beginRun id q o = c.finish id (.error .connectionClosed) := by
  simp only [Client.beginRun, hc, if_true]

theorem beginRun_noreply (hc : c.closed = false) (q : Term) {o : Options}
    (ho : o.noreply = true) :
    c.beginRun id q o = c.issue.2.spawn
      { id, purpose := .silent, work := .frame (Frame.start c.issue.1 q (o.entries c.db)) } := by
  simp only [Client.beginRun, hc, ho, Bool.false_eq_true, if_false, if_true]
  rfl

theorem beginRun_request (hc : c.closed = false) (q : Term) {o : Options}
    (ho : o.noreply = false) :
    c.beginRun id q o =
      c.issue.2.requestOrFail id .run (Frame.start c.issue.1 q (o.entries c.db)) := by
  simp only [Client.beginRun, hc, ho, Bool.false_eq_true, if_false]
  rfl

theorem beginStop_exhausted (c : Client) (id : Nat) {k : Cursor} (he : k.exhausted = true) :
    c.beginStop id k = (c.hold k.stopped).finish id (.ok .done) := by
  simp only [Client.beginStop, he, if_true]

theorem beginStop_closed (hc : c.closed = true) (id : Nat) {k : Cursor}
    (he : k.exhausted = false) : c.beginStop id k =
      ({ c with waiters := c.waiters.remove k.token }.hold k.stopped).finish id (.ok .done) := by
  have hr : { c with waiters := c.waiters.remove k.token }.closed = true := hc
  simp only [Client.beginStop, he, hr, Bool.false_eq_true, if_false, if_true]

theorem beginStop_tell (hc : c.closed = false) (id : Nat) {k : Cursor}
    (he : k.exhausted = false) : c.beginStop id k =
      { c with waiters := c.waiters.remove k.token }.tellStop k.token id (.stop k.stopped) := by
  have hr : { c with waiters := c.waiters.remove k.token }.closed = false := hc
  simp only [Client.beginStop, he, hr, Bool.false_eq_true, if_false]

theorem stopDropped_closed (hc : c.closed = true) {token : UInt64} (ht : token ∈ c.stopping) :
    c.stopDropped token = { c with
      stopping := c.stopping.erase token
      waiters := c.waiters.remove token } := by
  have hm : c.stopping.contains token = true := by simpa using ht
  have hr : { c with
      stopping := c.stopping.erase token
      waiters := c.waiters.remove token }.closed = true := hc
  simp only [Client.stopDropped, hm, hr, if_true]

theorem stopDropped_tell (hc : c.closed = false) {token : UInt64} (ht : token ∈ c.stopping) :
    c.stopDropped token = { c with
      stopping := c.stopping.erase token
      waiters := c.waiters.remove token
      begun := c.begun + 1 }.tellStop token c.begun .abandon := by
  have hm : c.stopping.contains token = true := by simpa using ht
  have hr : { c with
      stopping := c.stopping.erase token
      waiters := c.waiters.remove token }.closed = false := hc
  simp only [Client.stopDropped, hm, hr, Bool.false_eq_true, if_true, if_false]

theorem enqueue_queued {t : Task} (ht : c.task? t.id = some t) (hp : t.phase = .unsent)
    (hs : c.shut = false) (hq : c.queue.length < capacity) : c.enqueue t.id =
      { c with queue := c.queue ++ [(t.work, t.id)] }.updateTask t.id fun t =>
        { t with phase := .queued } := by
  simp [Client.enqueue, ht, hp, hs, hq]

theorem enqueue_barred {t : Task} (ht : c.task? t.id = some t) (hp : t.phase = .unsent)
    (hs : c.shut = true) :
    c.enqueue t.id = c.updateTask t.id fun t => { t with phase := .refused } := by
  simp [Client.enqueue, ht, hp, hs]

theorem enqueue_of_none (ht : c.task? id = none) : c.enqueue id = c := by
  simp only [enqueue, ht]

theorem enqueue_of_sent {t : Task} (ht : c.task? id = some t) (hp : t.phase ≠ .unsent) :
    c.enqueue id = c := by
  simp [enqueue, ht, hp]

theorem enqueue_of_full (h : ¬ c.queue.length < capacity) (hs : c.shut = false) :
    c.enqueue id = c := by
  unfold enqueue
  split
  · rfl
  · simp [hs, h]

theorem write_of_nil (hq : c.queue = []) : c.write = c := by
  simp only [write, hq]

theorem write_frame {f : Frame} {rest : List (Work × Nat)}
    (hq : c.queue = (.frame f, id) :: rest) :
    c.write = { c with queue := rest, written := c.written ++ [f] }.updateTask id fun t =>
      { t with phase := .written } := by
  simp only [write, hq]

theorem resume_of_none (ht : c.task? id = none) : c.resume id = c := by
  simp only [resume, ht]

theorem resume_of_waiting {t : Task} (ht : c.task? id = some t) (ha : t.purpose.awaits = true)
    (hp : t.phase ≠ .refused) (hn : t.phase = .written → t.answer = none) : c.resume id = c := by
  cases hphase : t.phase with
  | refused => exact absurd hphase hp
  | written => cases hw : t.work <;> simp only [resume, ht, hphase, ha, hw, hn hphase]
  | unsent | queued => simp only [resume, ht, hphase]

theorem receive_token (k : Cursor) (a : Answer) : (k.receive a).1.token = k.token := by
  unfold Cursor.receive
  split
  · rfl
  · split <;> rfl

theorem token_of_result {a : Answer} {token : UInt64} {k : Cursor}
    (h : a.result token = .ok (.cursor k)) : k.token = token := by
  unfold Answer.result at h
  cases hc : a.checked with
  | error e =>
    rw [hc] at h
    cases h
  | ok r =>
    rw [hc] at h
    simp only [bind, Except.bind] at h
    split at h <;> cases h
    rfl

theorem toNat_issue_le (c : Client) : c.issue.1.toNat ≤ c.issue.2.issued := by
  simp only [issue, UInt64.toNat_ofNat']
  exact Nat.mod_le _ _

theorem toNat_issue (fresh : c.issued + 1 < UInt64.size) : c.issue.1.toNat = c.issued + 1 := by
  simp only [issue, UInt64.toNat_ofNat']
  exact Nat.mod_eq_of_lt fresh

end Client

end ReqlDriver
