import ReqlDriver.Proofs.Connection.Collision

namespace ReqlDriver.Client

def Records (c : Client) (id : Nat) (d : Client) : Prop :=
  d.finished = c.finished ∨ ∃ outcome, d.finished = c.finished ++ [(id, outcome)]

variable {c d : Client} {e : Event} {id : Nat} {r : Nat × Except Error Outcome}

theorem Tried.records {token : UInt64} (h : Tried c id token d) : Records c id d :=
  h.imp_right fun ⟨outcome, hd, _⟩ => ⟨outcome, hd⟩

theorem Records.of_eq {b : Client} (h : Records b id d) (hb : b.finished = c.finished) :
    Records c id d := by
  rwa [Records, hb] at h

theorem records_finish (c : Client) (id : Nat) (outcome : Except Error Outcome) :
    Records c id (c.finish id outcome) := .inr ⟨outcome, rfl⟩

theorem records_finishRun (c : Client) (id : Nat) (r : Except Error Result) :
    Records c id (c.finishRun id r) := by
  unfold finishRun
  split <;> exact .inr ⟨_, rfl⟩

theorem records_proceed (c : Client) (id : Nat) (purpose : Purpose) (token : UInt64)
    (a : Answer) : Records c id (c.proceed id purpose token a) := by
  unfold proceed
  split
  · exact records_finishRun _ _ _
  · exact records_finish _ _ _
  · exact records_finish _ _ _
  · split
    · exact (records_finish _ _ _).of_eq rfl
    · exact (tried_advance _ _ _).records
  · split
    · exact (records_finish _ _ _).of_eq (finished_abandon _ _)
    · exact (tried_gather _ _ _ _).records
  · exact .inl rfl

theorem records_refuse (c : Client) (t : Task) : Records (c.dismiss t) t.id (c.refuse t) := by
  unfold refuse
  dsimp only
  split
  · exact (records_finish _ _ _).of_eq rfl
  · exact (records_finish _ _ _).of_eq rfl
  · exact (records_finish _ _ _).of_eq (finished_abandon _ _)
  · exact records_finish _ _ _
  · exact .inl rfl
  · exact records_finish _ _ _

theorem records_complete (c : Client) (t : Task) : Records (c.dismiss t) t.id (c.complete t) := by
  unfold complete
  dsimp only
  split
  · exact records_finish _ _ _
  · exact (records_finish _ _ _).of_eq rfl
  · exact records_finish _ _ _
  · exact .inl rfl

theorem records_resume (c : Client) (id : Nat) :
    c.resume id = c ∨ (∃ t ∈ c.tasks, t.id = id) ∧ Records c id (c.resume id) := by
  unfold resume
  cases ht : c.task? id with
  | none => exact .inl rfl
  | some t =>
    obtain ⟨hm, rfl⟩ := mem_of_task? ht
    have hd := finished_dismiss c t
    dsimp only
    split
    · exact .inr ⟨⟨t, hm, rfl⟩, (records_refuse c t).of_eq hd⟩
    · exact .inr ⟨⟨t, hm, rfl⟩, (records_complete c t).of_eq hd⟩
    · exact .inr ⟨⟨t, hm, rfl⟩, (records_proceed (c.dismiss t) _ _ _ _).of_eq hd⟩
    · exact .inl rfl

theorem records_beginRun (c : Client) (id : Nat) (q : Term) (o : Options) :
    Records c id (c.beginRun id q o) := by
  cases hc : c.closed with
  | true =>
    rw [beginRun_closed hc]
    exact records_finish _ _ _
  | false =>
    cases ho : o.noreply with
    | true =>
      rw [beginRun_noreply hc q ho]
      exact .inl rfl
    | false =>
      rw [beginRun_request hc q ho]
      exact (tried_requestOrFail c.issue.2 _ _ _).records.of_eq rfl

theorem records_beginStop (c : Client) (id : Nat) (k : Cursor) :
    Records c id (c.beginStop id k) := by
  unfold beginStop
  split
  · exact (records_finish _ _ _).of_eq rfl
  · dsimp only
    split
    · exact (records_finish _ _ _).of_eq rfl
    · exact .inl rfl

theorem records_beginClose (c : Client) (id : Nat) : Records c id (c.beginClose id) := by
  unfold beginClose
  split
  · exact records_finish _ _ _
  · exact .inl (finished_answerAll _ _)

theorem records_call (c : Client) (call : Call) :
    c.call call = c ∨ (c.call call).begun = c.begun + 1 ∧ Records c c.begun (c.call call) := by
  let d : Client := { c with begun := c.begun + 1 }
  have hbegun {s : Client} (hs : s.standing.begun = c.begun + 1) : s.begun = c.begun + 1 := hs
  cases call with
  | run q o =>
    refine .inr ⟨hbegun ?_, (records_beginRun d _ q o).of_eq rfl⟩
    simp only [Client.call, standing_beginRun]
    rfl
  | noreplyWait | serverInfo =>
    refine .inr ⟨hbegun ?_, (tried_requestOrFail d.issue.2 _ _ _).records.of_eq rfl⟩
    simp only [Client.call, beginControl, standing_requestOrFail]
    rfl
  | close =>
    refine .inr ⟨hbegun ?_, (records_beginClose d _).of_eq rfl⟩
    simp only [Client.call, standing_beginClose]
    rfl
  | next token =>
    cases hk : c.cursor? token with
    | none => exact .inl (by simp only [Client.call, hk])
    | some k =>
      rw [call_next hk]
      refine .inr ⟨hbegun ?_, (tried_advance (d.take token) _ _).records.of_eq rfl⟩
      rw [standing_advance]
      rfl
  | collect token =>
    cases hk : c.cursor? token with
    | none => exact .inl (by simp only [Client.call, hk])
    | some k =>
      rw [call_collect hk]
      refine .inr ⟨hbegun ?_, (tried_gather (d.take token) _ _ _).records.of_eq rfl⟩
      rw [standing_gather]
      rfl
  | stop token =>
    cases hk : c.cursor? token with
    | none => exact .inl (by simp only [Client.call, hk])
    | some k =>
      rw [call_stop hk]
      refine .inr ⟨hbegun ?_, (records_beginStop (d.take token) _ _).of_eq rfl⟩
      rw [standing_beginStop]
      rfl

theorem Records.mem_or (h : Records c id d) (hr : r ∈ d.finished) :
    r ∈ c.finished ∨ r.1 = id := by
  rcases h with h | ⟨outcome, h⟩
  · exact .inl (h ▸ hr)
  · rw [h] at hr
    rcases List.mem_append.mp hr with hr | hr
    · exact .inl hr
    · exact .inr (congrArg Prod.fst (List.mem_singleton.mp hr))

theorem recorded_step (hr : r ∈ (c.step e).finished) : r ∈ c.finished ∨
    r.1 = c.begun ∧ (c.step e).begun = c.begun + 1 ∨
      ∃ t ∈ c.tasks, t.id = r.1 ∧ e = .resume r.1 := by
  cases e with
  | call call =>
    rcases records_call c call with hs | ⟨hb, hrec⟩
    · rw [step, hs] at hr
      exact .inl hr
    · exact (hrec.mem_or hr).imp_right fun hi => .inl ⟨hi, hb⟩
  | resume id =>
    rcases records_resume c id with hs | ⟨⟨t, ht, hi⟩, hrec⟩
    · rw [step, hs] at hr
      exact .inl hr
    · refine (hrec.mem_or hr).imp_right fun hri => .inr ⟨t, ht, hi.trans hri.symm, ?_⟩
      rw [hri]
  | dropCursor token =>
    refine .inl ?_
    simp only [step, dropCursor] at hr
    split at hr
    · exact hr
    · rwa [finished_abandon] at hr
  | useDb name => exact .inl hr
  | cancel id => exact .inl (finished_cancel c id ▸ hr)
  | stopDropped | enqueue | write | failWrite | receive | endOfStream =>
    refine .inl ?_
    rwa [(step_inner c rfl).1] at hr

end ReqlDriver.Client
