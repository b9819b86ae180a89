import ReqlDriver.Proofs.Connection.Steps

/-!
What holds of a connection whatever happens to it: every waiter belongs to a task that sends a frame
of its token, numbers of calls and tokens are not handed out twice, and before it is closed nothing
ends its sending side.
-/

namespace ReqlDriver

def Purpose.cursor? : Purpose → Option Cursor
  | next c => some c
  | collect c _ => some c
  | stop c => some c
  | _ => none

namespace Task

def Requests (t : Task) (token : UInt64) (id : Nat) : Prop :=
  t.id = id ∧ t.purpose.awaits ∧ ∃ f, t.work = .frame f ∧ f.token = token

structure Within (t : Task) (issued : Nat) : Prop where
  frame : ∀ f, t.work = .frame f → f.token.toNat ≤ issued
  cursor : ∀ k, t.purpose.cursor? = some k → k.token.toNat ≤ issued

end Task

namespace Client

structure Sending (c : Client) : Prop where
  shut : c.shut = false
  queue : ∀ w ∈ c.queue, w.1 ≠ .shutdown
  tasks : ∀ t ∈ c.tasks, t.work ≠ .shutdown

structure Orderly (c : Client) : Prop where
  ids : (c.tasks.map Task.id).Nodup
  begun : ∀ t ∈ c.tasks, t.id < c.begun
  tokens : (c.waiters.pending.map (·.1)).Nodup
  waiting : ∀ p ∈ c.waiters.pending, ∃ t ∈ c.tasks, t.Requests p.1 p.2
  tasks : ∀ t ∈ c.tasks, t.Within c.issued
  cursors : ∀ k ∈ c.cursors, k.token.toNat ≤ c.issued
  stopping : ∀ token ∈ c.stopping, token.toNat ≤ c.issued
  sending : c.closed = false → c.Sending

structure Free (c : Client) (id : Nat) : Prop where
  begun : id < c.begun
  tasks : ∀ t ∈ c.tasks, t.id ≠ id

theorem orderly_start (db : Option String) : Orderly { db } := by
  have hs : Sending { db } := ⟨rfl, List.forall_mem_nil _, List.forall_mem_nil _⟩
  exact ⟨.nil, List.forall_mem_nil _, .nil, List.forall_mem_nil _, List.forall_mem_nil _,
    List.forall_mem_nil _, List.forall_mem_nil _, fun _ => hs⟩

variable {c : Client} {id : Nat}

theorem Orderly.task?_eq (h : Orderly c) {t : Task} (ht : t ∈ c.tasks) :
    c.task? t.id = some t := by
  cases hu : c.task? t.id with
  | none =>
    have hn := List.find?_eq_none.mp hu t ht
    simp at hn
  | some u =>
    obtain ⟨hm, hi⟩ := mem_of_task? hu
    rw [eq_of_nodup_map h.ids hm ht hi]

theorem Orderly.finish (h : Orderly c) (outcome : Except Error Outcome) :
    Orderly (c.finish id outcome) :=
  { h with sending := fun ho => { h.sending ho with } }

theorem Orderly.hold (h : Orderly c) {k : Cursor} (hk : k.token.toNat ≤ c.issued) :
    Orderly (c.hold k) :=
  { h with
    cursors := by
      intro j hj
      rcases List.mem_cons.mp hj with rfl | hj
      · exact hk
      · exact h.cursors j hj
    sending := fun ho => { h.sending ho with } }

theorem Orderly.take (h : Orderly c) (token : UInt64) : Orderly (c.take token) :=
  { h with
    cursors := fun k hk => h.cursors k (List.mem_filter.mp hk).1
    sending := fun ho => { h.sending ho with } }

theorem Orderly.abandon (h : Orderly c) {k : Cursor} (hk : k.token.toNat ≤ c.issued) :
    Orderly (c.abandon k) := by
  unfold Client.abandon
  split
  · exact h
  · exact { h with
      stopping := by
        intro token ht
        rcases List.mem_append.mp ht with ht | ht
        · exact h.stopping token ht
        · obtain rfl := List.mem_singleton.mp ht
          exact hk
      sending := fun ho => { h.sending ho with } }

theorem Orderly.begin (h : Orderly c) : Orderly { c with begun := c.begun + 1 } :=
  { h with
    begun := fun t ht => Nat.lt_succ_of_lt (h.begun t ht)
    sending := fun ho => { h.sending ho with } }

theorem Orderly.free_begun (h : Orderly c) : Free { c with begun := c.begun + 1 } c.begun :=
  ⟨Nat.lt_succ_self _, fun t ht => Nat.ne_of_lt (h.begun t ht)⟩

theorem Orderly.issue (h : Orderly c) : Orderly c.issue.2 :=
  { h with
    tasks := by
      intro t ht
      obtain ⟨hf, hk⟩ := h.tasks t ht
      exact ⟨fun f he => Nat.le_succ_of_le (hf f he), fun k he => Nat.le_succ_of_le (hk k he)⟩
    cursors := fun k hk => Nat.le_succ_of_le (h.cursors k hk)
    stopping := fun token ht => Nat.le_succ_of_le (h.stopping token ht)
    sending := fun ho => { h.sending ho with } }

theorem Orderly.spawn (h : Orderly c) {t : Task} (hi : Free c t.id) (hw : t.Within c.issued)
    (hs : c.closed = false → t.work ≠ .shutdown) : Orderly (c.spawn t) :=
  { h with
    ids := by
      simp only [Client.spawn, List.map_append, List.nodup_append]
      refine ⟨h.ids, by simp, ?_⟩
      intro i hm j hj
      obtain ⟨u, hu, rfl⟩ := List.mem_map.mp hm
      obtain rfl := List.mem_singleton.mp hj
      exact hi.tasks u hu
    begun := by
      intro u hu
      rcases List.mem_append.mp hu with hu | hu
      · exact h.begun u hu
      · obtain rfl := List.mem_singleton.mp hu
        exact hi.begun
    waiting := by
      intro p hp
      obtain ⟨u, hu, hr⟩ := h.waiting p hp
      exact ⟨u, List.mem_append_left _ hu, hr⟩
    tasks := by
      intro u hu
      rcases List.mem_append.mp hu with hu | hu
      · exact h.tasks u hu
      · obtain rfl := List.mem_singleton.mp hu
        exact hw
    sending := by
      intro ho
      refine { h.sending ho with tasks := ?_ }
      intro u hu
      rcases List.mem_append.mp hu with hu | hu
      · exact (h.sending ho).tasks u hu
      · obtain rfl := List.mem_singleton.mp hu
        exact hs ho }

theorem Orderly.request (h : Orderly c) {c' : Client} {purpose : Purpose} {f : Frame}
    (hr : c.request id purpose f = .ok c') (hi : Free c id) (ha : purpose.awaits)
    (hf : f.token.toNat ≤ c.issued)
    (hk : ∀ k, purpose.cursor? = some k → k.token.toNat ≤ c.issued) : Orderly c' := by
  obtain ⟨hc, hn, rfl⟩ := request_eq_ok_iff.mp hr
  let t : Task := { id, purpose, work := .frame f }
  have hwithin : t.Within c.issued :=
    ⟨fun g hg => by obtain rfl := Work.frame.inj hg; exact hf, hk⟩
  have hs : Orderly (c.spawn t) := h.spawn hi hwithin fun _ => by simp [t]
  exact { hs with
    tokens := List.nodup_cons.mpr ⟨hn, h.tokens⟩
    waiting := by
      intro p hp
      rcases List.mem_cons.mp hp with rfl | hp
      · exact ⟨t, List.mem_append_right _ List.mem_cons_self, rfl, ha, f, rfl, rfl⟩
      · exact hs.waiting p hp
    sending := fun ho => { hs.sending ho with } }

theorem Orderly.remove (h : Orderly c) (token : UInt64) :
    Orderly { c with waiters := c.waiters.remove token } :=
  { h with
    tokens := h.tokens.sublist (List.filter_sublist.map _)
    waiting := fun p hp => h.waiting p (List.mem_filter.mp hp).1
    sending := fun ho => { h.sending ho with } }

theorem Orderly.dismiss (h : Orderly c) {t : Task} (ht : t ∈ c.tasks) :
    Orderly (c.dismiss t) := by
  let kept : Client := { c with tasks := c.tasks.filter fun u => u.id != t.id }
  -- a waiter of another number keeps its task
  have hkept : ∀ w : Waiters, w.pending.Sublist c.waiters.pending → w.closed = c.waiters.closed →
      (∀ p ∈ w.pending, p.2 ≠ t.id) → Orderly { kept with waiters := w } := by
    intro w hw hc hne
    exact { h with
      ids := h.ids.sublist (List.filter_sublist.map _)
      begun := fun u hu => h.begun u (List.mem_filter.mp hu).1
      tokens := h.tokens.sublist (hw.map _)
      waiting := by
        intro p hp
        obtain ⟨u, hu, hr⟩ := h.waiting p (hw.subset hp)
        refine ⟨u, List.mem_filter.mpr ⟨hu, ?_⟩, hr⟩
        have hi : u.id ≠ t.id := hr.1 ▸ hne p hp
        simpa using hi
      tasks := fun u hu => h.tasks u (List.mem_filter.mp hu).1
      sending := by
        intro ho
        have hs := h.sending (hc.symm.trans ho)
        exact { hs with tasks := fun u hu => hs.tasks u (List.mem_filter.mp hu).1 } }
  -- and the waiters of the task itself are those of its frame's token
  have hown : ∀ p ∈ c.waiters.pending, p.2 = t.id →
      t.purpose.awaits ∧ ∃ f, t.work = .frame f ∧ f.token = p.1 := by
    intro p hp he
    obtain ⟨u, hu, hi, ha, hf⟩ := h.waiting p hp
    obtain rfl := eq_of_nodup_map h.ids hu ht (hi.trans he)
    exact ⟨ha, hf⟩
  unfold Client.dismiss
  split
  · rename_i f ha hf
    refine hkept (c.waiters.remove f.token) List.filter_sublist rfl ?_
    intro p hp he
    obtain ⟨hm, hn⟩ := List.mem_filter.mp hp
    obtain ⟨-, g, hg, ht⟩ := hown p hm he
    obtain rfl := Work.frame.inj (hf.symm.trans hg)
    simp [ht] at hn
  · rename_i hno
    refine hkept c.waiters (List.Sublist.refl _) rfl ?_
    intro p hp he
    obtain ⟨ha, f, hf, -⟩ := hown p hp he
    exact hno f ha hf

theorem Orderly.free_dismiss (h : Orderly c) {t : Task} (ht : t ∈ c.tasks) :
    Free (c.dismiss t) t.id := by
  have hb := h.begun t ht
  have hf : ∀ u ∈ c.tasks.filter (fun u => u.id != t.id), u.id ≠ t.id := by
    intro u hu
    simpa using (List.mem_filter.mp hu).2
  unfold Client.dismiss
  split
  · exact ⟨hb, hf⟩
  · exact ⟨hb, hf⟩

def Progresses (f : Task → Task) : Prop :=
  ∀ t, (f t).id = t.id ∧ (f t).purpose = t.purpose ∧ (f t).work = t.work

theorem Orderly.mapTasks (h : Orderly c) {f : Task → Task} (hf : Progresses f) :
    Orderly { c with tasks := c.tasks.map f } :=
  { h with
    ids := by
      have hi : (c.tasks.map f).map Task.id = c.tasks.map Task.id := by
        rw [List.map_map]
        exact List.map_congr_left fun t _ => (hf t).1
      rw [hi]
      exact h.ids
    begun := by
      intro u hu
      obtain ⟨t, ht, rfl⟩ := List.mem_map.mp hu
      rw [(hf t).1]
      exact h.begun t ht
    waiting := by
      intro p hp
      obtain ⟨t, ht, hi, ha, g, hg, hp⟩ := h.waiting p hp
      obtain ⟨fi, fp, fw⟩ := hf t
      exact ⟨f t, List.mem_map_of_mem ht, fi.trans hi, fp ▸ ha, g, fw.trans hg, hp⟩
    tasks := by
      intro u hu
      obtain ⟨t, ht, rfl⟩ := List.mem_map.mp hu
      obtain ⟨-, fp, fw⟩ := hf t
      obtain ⟨hg, hk⟩ := h.tasks t ht
      exact ⟨fun g he => hg g (fw ▸ he), fun k he => hk k (fp ▸ he)⟩
    sending := by
      intro ho
      refine { h.sending ho with tasks := ?_ }
      intro u hu
      obtain ⟨t, ht, rfl⟩ := List.mem_map.mp hu
      rw [(hf t).2.2]
      exact (h.sending ho).tasks t ht }

theorem Orderly.updateTask (h : Orderly c) (id : Nat) {f : Task → Task} (hf : Progresses f) :
    Orderly (c.updateTask id f) := by
  apply h.mapTasks
  intro t
  by_cases hi : t.id = id
  · simpa [hi] using hf t
  · simp [hi]

theorem Orderly.answerAll (h : Orderly c) (answers : List (Nat × Answer)) :
    Orderly (c.answerAll answers) := by
  induction answers generalizing c with
  | nil => exact h
  | cons a r ih =>
    exact ih (h.updateTask a.1 fun t => ⟨rfl, rfl, rfl⟩)

theorem Orderly.receive (h : Orderly c) (f : Frame) : Orderly (c.receive f) := by
  unfold Client.receive Waiters.dispatch
  cases c.waiters.get? f.token with
  | none => exact h
  | some i => exact (h.remove f.token).answerAll _

theorem Orderly.endOfStream (h : Orderly c) : Orderly c.endOfStream := by
  have hc : Orderly { c with waiters := { pending := [], closed := true } } :=
    { h with
      tokens := .nil
      waiting := List.forall_mem_nil _
      sending := by
        intro ho
        cases ho }
  exact hc.answerAll _

theorem Free.answerAll (h : Free c id) (answers : List (Nat × Answer)) :
    Free (c.answerAll answers) id := by
  induction answers generalizing c with
  | nil => exact h
  | cons a r ih =>
    apply ih
    refine ⟨h.begun, ?_⟩
    intro u hu
    obtain ⟨t, ht, rfl⟩ := List.mem_map.mp hu
    split <;> exact h.tasks t ht

theorem Free.endOfStream (h : Free c id) : Free c.endOfStream id := by
  have hf : Free { c with waiters := { pending := [], closed := true } } id := ⟨h.begun, h.tasks⟩
  exact hf.answerAll _

theorem Orderly.requestOrFail (h : Orderly c) (hi : Free c id) {purpose : Purpose} {f : Frame}
    (ha : purpose.awaits) (hf : f.token.toNat ≤ c.issued)
    (hk : ∀ k, purpose.cursor? = some k → k.token.toNat ≤ c.issued) :
    Orderly (c.requestOrFail id purpose f) := by
  unfold Client.requestOrFail
  cases hr : c.request id purpose f with
  | ok c' => exact h.request hr hi ha hf hk
  | error e => exact h.finish _

theorem Orderly.advance (h : Orderly c) (hi : Free c id) {k : Cursor}
    (hk : k.token.toNat ≤ c.issued) : Orderly (c.advance id k) := by
  cases hb : k.buffer with
  | cons d r =>
    have hh : Orderly (c.hold { k with buffer := r }) := h.hold hk
    rw [advance_row c id hb]
    exact hh.finish _
  | nil =>
    cases he : k.exhausted with
    | true =>
      rw [advance_ended c id hb he]
      exact (h.hold hk).finish _
    | false =>
      cases hr : c.request id (.next k) (Frame.control k.token .fetch) with
      | ok c' =>
        rw [advance_fetch c id hb he hr]
        apply h.request hr hi rfl hk
        intro j hj
        obtain rfl := Option.some.inj hj
        exact hk
      | error e =>
        rw [advance_refused c id hb he hr]
        exact (h.hold hk).finish _

theorem Orderly.gather (h : Orderly c) (hi : Free c id) {k : Cursor}
    (hk : k.token.toNat ≤ c.issued) (rows : List Datum) : Orderly (c.gather id k rows) := by
  cases he : k.exhausted with
  | true =>
    rw [gather_ended c id rows he]
    exact h.finish _
  | false =>
    cases hr : c.request id (.collect { k with buffer := [] } (rows ++ k.buffer))
        (Frame.control k.token .fetch) with
    | ok c' =>
      rw [gather_fetch c id rows he hr]
      apply h.request hr hi rfl hk
      intro j hj
      obtain rfl := Option.some.inj hj
      exact hk
    | error e =>
      rw [gather_refused c id rows he hr]
      have ha : Orderly (c.abandon { k with buffer := [] }) := h.abandon hk
      exact ha.finish _

theorem Orderly.tellStop (h : Orderly c) (hi : Free c id) {token : UInt64} {purpose : Purpose}
    (ht : token.toNat ≤ c.issued)
    (hk : ∀ k, purpose.cursor? = some k → k.token.toNat ≤ c.issued) :
    Orderly (c.tellStop token id purpose) := by
  apply h.spawn hi
  · exact ⟨fun f hf => by obtain rfl := Work.frame.inj hf; exact ht, hk⟩
  · intro _ he
    cases he

end Client

end ReqlDriver
