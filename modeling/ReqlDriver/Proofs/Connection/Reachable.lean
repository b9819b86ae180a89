import ReqlDriver.Proofs.Connection.Orderly

namespace ReqlDriver.Client

variable {c : Client} {id : Nat}

theorem Free.issue (h : Free c id) : Free c.issue.2 id := ⟨h.begun, h.tasks⟩

theorem Orderly.beginRun (h : Orderly c) (hi : Free c id) (q : Term) (o : Options) :
    Orderly (c.beginRun id q o) := by
  have hf := toNat_issue_le c
  cases hc : c.closed with
  | true =>
    rw [beginRun_closed hc]
    exact h.finish _
  | false =>
    cases ho : o.noreply with
    | true =>
      rw [beginRun_noreply hc q ho]
      apply h.issue.spawn hi.issue
      · constructor
        · intro f he
          obtain rfl := Work.frame.inj he
          exact hf
        · intro k hk
          cases hk
      · intro _ he
        cases he
    | false =>
      rw [beginRun_request hc q ho]
      apply h.issue.requestOrFail hi.issue rfl hf
      intro k hk
      cases hk

theorem Orderly.beginControl (h : Orderly c) (hi : Free c id) {purpose : Purpose}
    (ha : purpose.awaits) (hn : purpose.cursor? = none) (type : QueryType) :
    Orderly (c.beginControl id purpose type) :=
  h.issue.requestOrFail hi.issue ha (toNat_issue_le c) fun k hk => by
    rw [hn] at hk
    cases hk

theorem Orderly.beginStop (h : Orderly c) (hi : Free c id) {k : Cursor}
    (hk : k.token.toNat ≤ c.issued) : Orderly (c.beginStop id k) := by
  have hd {c : Client} (h : Orderly c) (hk : k.token.toNat ≤ c.issued) :
      Orderly ((c.hold k.stopped).finish id (.ok .done)) := by
    have hs : Orderly (c.hold k.stopped) := h.hold hk
    exact hs.finish _
  unfold Client.beginStop
  split
  · exact hd h hk
  · dsimp only
    split
    · exact hd (h.remove k.token) hk
    · apply (h.remove k.token).tellStop ⟨hi.begun, hi.tasks⟩ hk
      intro j hj
      obtain rfl := Option.some.inj hj
      exact hk

theorem Orderly.beginClose (h : Orderly c) (hi : Free c id) : Orderly (c.beginClose id) := by
  unfold Client.beginClose
  split
  · exact h.finish _
  · apply h.endOfStream.spawn
    · exact Free.endOfStream hi
    · constructor
      · intro f hf
        cases hf
      · intro k hk
        cases hk
    · intro ho
      rw [closed_endOfStream] at ho
      cases ho

theorem Orderly.call (h : Orderly c) (call : Call) : Orderly (c.call call) := by
  have hb := h.begin
  have hi := h.free_begun
  cases call with
  | run q o => exact hb.beginRun hi q o
  | noreplyWait => exact hb.beginControl hi rfl rfl _
  | serverInfo => exact hb.beginControl hi rfl rfl _
  | close => exact hb.beginClose hi
  | next token =>
    cases hk : c.cursor? token with
    | none => simpa [Client.call, hk] using h
    | some k =>
      have hc := (hb.take token).advance ⟨hi.begun, hi.tasks⟩ (h.cursors k (mem_of_cursor? hk))
      simpa [Client.call, hk] using hc
  | collect token =>
    cases hk : c.cursor? token with
    | none => simpa [Client.call, hk] using h
    | some k =>
      have hc := (hb.take token).gather ⟨hi.begun, hi.tasks⟩ (h.cursors k (mem_of_cursor? hk)) []
      simpa [Client.call, hk] using hc
  | stop token =>
    cases hk : c.cursor? token with
    | none => simpa [Client.call, hk] using h
    | some k =>
      have hc := (hb.take token).beginStop ⟨hi.begun, hi.tasks⟩ (h.cursors k (mem_of_cursor? hk))
      simpa [Client.call, hk] using hc

theorem Orderly.dropCursor (h : Orderly c) (token : UInt64) : Orderly (c.dropCursor token) := by
  unfold Client.dropCursor
  cases hk : c.cursor? token with
  | none => exact h
  | some k => exact (h.take token).abandon (h.cursors k (mem_of_cursor? hk))

theorem Orderly.stopDropped (h : Orderly c) (token : UInt64) : Orderly (c.stopDropped token) := by
  unfold Client.stopDropped
  split
  · rename_i hm
    have hm : token ∈ c.stopping := by simpa using hm
    have hr := h.remove token
    have he : Orderly { c with
        stopping := c.stopping.erase token
        waiters := c.waiters.remove token } :=
      { hr with
        stopping := fun t ht => h.stopping t (List.mem_of_mem_erase ht)
        sending := fun ho => { hr.sending ho with } }
    dsimp only
    split
    · exact he
    · apply he.begin.tellStop he.free_begun (h.stopping token hm)
      intro k hk
      cases hk
  · exact h

theorem Orderly.enqueue (h : Orderly c) (id : Nat) : Orderly (c.enqueue id) := by
  unfold Client.enqueue
  cases ht : c.task? id with
  | none => exact h
  | some t =>
    have hm := (mem_of_task? ht).1
    simp only
    split
    · exact h
    · split
      · exact h.updateTask id fun u => ⟨rfl, rfl, rfl⟩
      · split
        · have hq : Orderly { c with queue := c.queue ++ [(t.work, id)] } :=
            { h with
              sending := by
                intro ho
                refine { h.sending ho with queue := ?_ }
                intro w hw
                rcases List.mem_append.mp hw with hw | hw
                · exact (h.sending ho).queue w hw
                · obtain rfl := List.mem_singleton.mp hw
                  exact (h.sending ho).tasks t hm }
          exact hq.updateTask id fun u => ⟨rfl, rfl, rfl⟩
        · exact h

theorem Orderly.write (h : Orderly c) : Orderly c.write := by
  unfold Client.write
  split
  · exact h
  · rename_i f id rest hq
    have hw : Orderly { c with queue := rest, written := c.written ++ [f] } :=
      { h with
        sending := by
          intro ho
          refine { h.sending ho with queue := ?_ }
          intro w hw
          exact (h.sending ho).queue w (hq ▸ List.mem_cons_of_mem _ hw) }
    exact hw.updateTask id fun u => ⟨rfl, rfl, rfl⟩
  · rename_i id rest hq
    -- with a shutdown in the queue the connection is closed
    have hc : c.closed = true := by
      cases hc : c.closed with
      | true => rfl
      | false => exact absurd rfl ((h.sending hc).queue (.shutdown, id) (hq ▸ List.mem_cons_self))
    have hs : Orderly { c with queue := [], shut := true } :=
      { h with
        sending := by
          intro ho
          rw [show c.closed = false from ho] at hc
          cases hc }
    apply hs.mapTasks
    intro t
    dsimp only
    split
    · exact ⟨rfl, rfl, rfl⟩
    · split <;> exact ⟨rfl, rfl, rfl⟩

theorem Orderly.failWrite (h : Orderly c) (fault : WriteFault) : Orderly (c.failWrite fault) := by
  unfold Client.failWrite
  split
  · rename_i f id rest hq
    have hw : Orderly { c with queue := rest } :=
      { h with
        sending := by
          intro ho
          refine { h.sending ho with queue := ?_ }
          intro w hw
          exact (h.sending ho).queue w (hq ▸ List.mem_cons_of_mem _ hw) }
    exact hw.updateTask id fun u => ⟨rfl, rfl, rfl⟩
  · exact h

theorem Orderly.finishRun (h : Orderly c) {token : UInt64} (ht : token.toNat ≤ c.issued)
    (a : Answer) : Orderly (c.finishRun id (a.result token)) := by
  unfold Client.finishRun
  split
  · rename_i k hr
    have hk : Orderly (c.hold k) := h.hold (token_of_result hr ▸ ht)
    exact hk.finish _
  · exact h.finish _
  · exact h.finish _

section

variable {t : Task}

theorem Orderly.within_dismiss (h : Orderly c) (ht : t ∈ c.tasks) :
    t.Within (c.dismiss t).issued := by
  rw [dismiss_issued]
  exact h.tasks t ht

theorem Orderly.complete (h : Orderly c) (ht : t ∈ c.tasks) : Orderly (c.complete t) := by
  have hd := h.dismiss ht
  have hw := h.within_dismiss ht
  unfold Client.complete
  split
  · exact hd.finish _
  · rename_i k hp
    have hk : Orderly ((c.dismiss t).hold k) := hd.hold (hw.cursor k (by rw [hp]; rfl))
    exact hk.finish _
  · exact hd.finish _
  · exact hd

theorem Orderly.refuse (h : Orderly c) (ht : t ∈ c.tasks) : Orderly (c.refuse t) := by
  have hd := h.dismiss ht
  have hw := h.within_dismiss ht
  unfold Client.refuse
  split
  · rename_i k hp
    have hk : Orderly ((c.dismiss t).hold k) := hd.hold (hw.cursor k (by rw [hp]; rfl))
    exact hk.finish _
  · rename_i k hp
    have hk : Orderly ((c.dismiss t).hold k) := hd.hold (hw.cursor k (by rw [hp]; rfl))
    exact hk.finish _
  · rename_i k rows hp
    have hk : Orderly ((c.dismiss t).abandon k) := hd.abandon (hw.cursor k (by rw [hp]; rfl))
    exact hk.finish _
  · exact hd.finish _
  · exact hd
  · exact hd.finish _

theorem Orderly.conclude (h : Orderly c) (ht : t ∈ c.tasks) {f : Frame} (hf : t.work = .frame f)
    (a : Answer) : Orderly (c.conclude t f a) := by
  have hd := h.dismiss ht
  have hi := h.free_dismiss ht
  have hw := h.within_dismiss ht
  unfold Client.conclude Client.proceed
  cases hp : t.purpose with
  | run => exact hd.finishRun (hw.frame f hf) a
  | noreplyWait => exact hd.finish _
  | serverInfo => exact hd.finish _
  | next k =>
    have hk : (k.receive a).1.token.toNat ≤ (c.dismiss t).issued := by
      rw [receive_token]
      exact hw.cursor k (by rw [hp]; rfl)
    cases hr : k.receive a with
    | mk j error =>
      rw [hr] at hk
      cases error with
      | none => simpa [hr] using hd.advance hi hk
      | some e =>
        have hj : Orderly ((c.dismiss t).hold j) := hd.hold hk
        simpa [hr] using hj.finish _
  | collect k rows =>
    have hk : (k.receive a).1.token.toNat ≤ (c.dismiss t).issued := by
      rw [receive_token]
      exact hw.cursor k (by rw [hp]; rfl)
    cases hr : k.receive a with
    | mk j error =>
      rw [hr] at hk
      cases error with
      | none => simpa [hr] using hd.gather hi hk rows
      | some e =>
        have hj : Orderly ((c.dismiss t).abandon j) := hd.abandon hk
        simpa [hr] using hj.finish _
  | silent => exact hd
  | stop k => exact hd
  | abandon => exact hd
  | close => exact hd

end

theorem Orderly.resume (h : Orderly c) (id : Nat) : Orderly (c.resume id) := by
  unfold Client.resume
  cases ht : c.task? id with
  | none => exact h
  | some t =>
    have hm := (mem_of_task? ht).1
    dsimp only
    split
    · exact h.refuse hm
    · exact h.complete hm
    · rename_i f a _ _ hf _
      exact h.conclude hm hf a
    · exact h

theorem Orderly.cancel (h : Orderly c) (id : Nat) : Orderly (c.cancel id) := by
  unfold Client.cancel
  cases ht : c.task? id with
  | none => exact h
  | some t =>
    have hm := (mem_of_task? ht).1
    have hd := h.dismiss hm
    have hw := h.within_dismiss hm
    dsimp only
    split
    · rename_i k hp
      exact hd.hold (hw.cursor k (by rw [hp]; rfl))
    · rename_i k hp
      exact hd.hold (hw.cursor k (by rw [hp]; rfl))
    · rename_i k rows hp
      exact hd.abandon (hw.cursor k (by rw [hp]; rfl))
    · exact h
    · exact hd

theorem Orderly.step (h : Orderly c) (e : Event) : Orderly (c.step e) := by
  cases e with
  | call call => exact h.call call
  | dropCursor token => exact h.dropCursor token
  | useDb name => exact { h with sending := fun ho => { h.sending ho with } }
  | cancel id => exact h.cancel id
  | stopDropped token => exact h.stopDropped token
  | enqueue id => exact h.enqueue id
  | write => exact h.write
  | failWrite fault => exact h.failWrite fault
  | receive f => exact h.receive f
  | endOfStream => exact h.endOfStream
  | resume id => exact h.resume id

theorem Orderly.after (h : Orderly c) (events : List Event) : Orderly (c.after events) := by
  induction events generalizing c with
  | nil => exact h
  | cons e r ih => exact ih (h.step e)

theorem Reachable.orderly (h : Reachable c) : Orderly c := by
  obtain ⟨db, events, rfl⟩ := h
  exact (orderly_start db).after events

end ReqlDriver.Client
