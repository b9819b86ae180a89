import ReqlDriver.Proofs.Connection.History
import ReqlDriver.Proofs.Connection.Verdict

namespace ReqlDriver

def Error.collides : Error → Bool
  | .protocol (.tokenInUse _) => true
  | _ => false

namespace Response

theorem typeOf_ne_tokenInUse (code : Option Json) (n : Nat) :
    typeOf code ≠ .error (.tokenInUse n) := by
  unfold typeOf
  split
  · simp
  · split <;> simp

theorem resultOf_ne_tokenInUse (type : ResponseType) (result : Json) (n : Nat) :
    resultOf type result ≠ .error (.tokenInUse n) := by
  unfold resultOf
  split
  · split <;> simp
  · split <;> simp

theorem bind_ne_error {α β : Type} {x : Except ProtocolFault α}
    {g : α → Except ProtocolFault β} {fault : ProtocolFault} (hx : x ≠ .error fault)
    (hg : ∀ a, g a ≠ .error fault) : x >>= g ≠ .error fault := by
  cases x with
  | error e =>
    intro h
    obtain rfl : e = fault := Except.error.inj h
    exact hx rfl
  | ok a => exact hg a

theorem ofJson_ne_tokenInUse (v : Json) (n : Nat) : ofJson v ≠ .error (.tokenInUse n) := by
  unfold ofJson
  split
  · refine bind_ne_error (typeOf_ne_tokenInUse _ n) fun type => ?_
    exact bind_ne_error (resultOf_ne_tokenInUse _ _ n) fun d => by simp
  · exact bind_ne_error (typeOf_ne_tokenInUse _ n) fun type => by simp
  · simp

end Response

theorem Response.collides_unexpected (r : Response) : r.unexpected.collides = false := by
  unfold Response.unexpected Response.error?
  cases r.type <;> rfl

theorem Purpose.collides_fault (p : Purpose) (type : ResponseType) :
    (Error.protocol (p.fault type)).collides = false := by
  cases p <;> rfl

def Answer.Fair (a : Answer) : Prop := ∀ e, a = .error e → e.collides = false

theorem Frame.fair_answer (f : Frame) : f.answer.Fair := by
  intro e h
  cases hr : Response.ofJson f.payload with
  | ok r =>
    rw [Frame.answer_eq_ok hr] at h
    cases h
  | error cause =>
    obtain rfl := Except.error.inj ((Frame.answer_eq_error hr).symm.trans h)
    cases cause with
    | tokenInUse n => exact absurd hr (Response.ofJson_ne_tokenInUse _ n)
    | _ => rfl

theorem Answer.Fair.accepted {a : Answer} (h : a.Fair) {p : Purpose} :
    (a.accepted p.codes p.fault).Fair := by
  intro e he
  cases a with
  | error e' =>
    cases he
    exact h _ rfl
  | ok r =>
    by_cases hr : r.type.isError = true
    · simp only [Answer.accepted, Answer.checked, Except.bind, hr, if_true] at he
      cases he
      exact r.collides_unexpected
    · simp only [Answer.accepted, Answer.checked, Except.bind, hr, Bool.false_eq_true,
        if_false] at he
      split at he
      · cases he
      · cases he
        exact p.collides_fault _

namespace Client

inductive Registers (c : Client) : Event → UInt64 → Waiters → Prop
  | opens {e : Event} {f : Frame} : f ∈ c.opens e → Registers c e f.token c.waiters
  | next {k : Cursor} : k ∈ c.cursors → Registers c (.call (.next k.token)) k.token c.waiters
  | collect {k : Cursor} : k ∈ c.cursors → Registers c (.call (.collect k.token)) k.token c.waiters
  | resume {t : Task} {f : Frame} : t ∈ c.tasks → t.purpose.awaits = true → t.work = .frame f →
      Registers c (.resume t.id) f.token (c.waiters.remove f.token)

inductive Leaves (p : UInt64 × Nat) : Event → Prop
  | answered {f : Frame} : f.token = p.1 → Leaves p (.receive f)
  | resumed : Leaves p (.resume p.2)
  | cancelled : Leaves p (.cancel p.2)
  | ended {e : Event} : e.ends = true → Leaves p e

def Vacant (c : Client) (e : Event) : Prop :=
  ∀ token w, Registers c e token w → token ∉ w.pending.map Prod.fst

def Spares (c d : Client) : Prop :=
  ∀ r ∈ d.finished, r ∈ c.finished ∨ ∀ e, r.2 = .error e → e.collides = false

variable {c d : Client} {e : Event} {id : Nat} {k : Cursor} {t u : Task} {a : Answer}
  {token : UInt64}

theorem Orderly.waiter (h : Orderly c) {p : UInt64 × Nat} (hp : p ∈ c.waiters.pending) :
    ∃ t ∈ c.tasks, t.id = p.2 ∧ (Holder.task t).token? = some p.1 := by
  obtain ⟨t, ht, hi, -, f, hf, hft⟩ := h.waiting p hp
  exact ⟨t, ht, hi, by simp [Holder.token?, hf, Work.frame?, hft]⟩

theorem Exclusive.not_mem_pending (h : Exclusive c) {j : Holder} (hj : j ∈ c.holders)
    (ht : j.token? = some token) (hn : ∀ t, j ≠ .task t) :
    token ∉ c.waiters.pending.map Prod.fst := by
  intro hm
  obtain ⟨p, hp, rfl⟩ := List.mem_map.mp hm
  obtain ⟨t, htask, -, htoken⟩ := h.orderly.waiter hp
  exact hn t (h.eq hj (task_mem_holders.mpr htask) ht htoken)

theorem Regular.vacant (h : Regular c) (fresh : (c.step e).issued < UInt64.size) :
    Vacant c e := by
  intro token w hr
  cases hr with
  | opens hf =>
    rcases opens_cases c e with ho | ⟨g, ho, hg⟩
    · rw [ho] at hf
      cases hf
    · rw [ho] at hf
      obtain rfl := List.mem_singleton.mp hf
      intro hm
      obtain ⟨p, hp, hpt⟩ := List.mem_map.mp hm
      obtain ⟨t, ht, -, htoken⟩ := h.orderly.waiter hp
      -- the next token is above all those handed out
      have hle := h.orderly.token_le (task_mem_holders.mpr ht) htoken
      rw [issued_step, ho] at fresh
      rw [hpt, hg, toNat_issue fresh] at hle
      omega
  | next hk | collect hk =>
    exact h.not_mem_pending (cursor_mem_holders.mpr hk) rfl (by simp)
  | resume =>
    intro hm
    obtain ⟨p, hp, hpt⟩ := List.mem_map.mp hm
    exact (mem_pending_without.mp hp).2 hpt

theorem Concluded.awaits {closed : Bool} {f : Frame} (h : Concluded closed t f a (some (.task u))) :
    t.purpose.awaits = true := by
  generalize ho : some (Holder.task u) = o at h
  cases h with
  | started | ended | failedNext => cases ho
  | failedCollect => exact absurd ho.symm remains_ne_task
  | next hp | collect hp => simp [hp, Purpose.awaits]

theorem Passes.registers {j : Holder} (h : Passes c e j (some (.task u))) (hj : j ∈ c.holders)
    (apt : ∀ t, j = .task t → t.Apt) (ha : u.purpose.awaits = true) {f : Frame}
    (hf : u.work = .frame f) : ∃ w, Registers c e f.token w := by
  have hu : (Holder.task u).token? = some f.token := by simp [Holder.token?, hf, Work.frame?]
  have htoken : j.token? = some f.token := (h.token apt rfl).symm.trans hu
  generalize ho : some (Holder.task u) = o at h
  cases h with
  | next =>
    rw [← Option.some.inj htoken]
    exact ⟨_, .next (cursor_mem_holders.mp hj)⟩
  | collect =>
    rw [← Option.some.inj htoken]
    exact ⟨_, .collect (cursor_mem_holders.mp hj)⟩
  | stopped | forget => cases ho
  | stop | tell =>
    obtain rfl := Holder.task.inj (Option.some.inj ho)
    cases ha
  | drop => exact absurd ho.symm remains_ne_task
  | cancel | refuse | complete => exact absurd ho.symm leaves_ne_task
  | conclude _ hg _ hc =>
    subst ho
    obtain ⟨g, hg, hgf⟩ := work_of_token htoken
    rw [← hgf]
    exact ⟨_, .resume (task_mem_holders.mp hj) hc.awaits hg⟩

theorem Regular.registers (h : Regular c) {p : UInt64 × Nat}
    (hp : p ∈ (c.step e).waiters.pending) :
    p ∈ c.waiters.pending ∨ ∃ w, Registers c e p.1 w := by
  refine (entered_step hp).imp_right fun he => ?_
  obtain ⟨u, hu, hi, ha, f, hf, hft⟩ := (h.orderly.step e).waiting p hp
  rw [← hft]
  rcases (turn_step h.toExclusive e).source hu with ⟨t, ht, hm⟩ | hb | ⟨j, hj, hpass⟩
  · rw [← hi, hm.id_eq] at he
    generalize hid : t.id = i at he
    cases he with
    | begins call => exact absurd hid (Nat.ne_of_lt (h.orderly.begun t ht))
    | resumes =>
      subst hid
      exact ⟨_, .resume ht (hm.purpose_eq ▸ ha) (hm.work_eq ▸ hf)⟩
  · cases hb with
    | run hc =>
      obtain rfl := Work.frame.inj hf
      exact ⟨_, .opens (by simp [opens, hc])⟩
    | silent => cases ha
    | noreplyWait | serverInfo =>
      obtain rfl := Work.frame.inj hf
      exact ⟨_, .opens List.mem_cons_self⟩
    | close => cases hf
  · refine hpass.registers hj ?_ ha hf
    rintro t rfl
    exact h.apt t (task_mem_holders.mp hj)

theorem Regular.leaves (h : Regular c) {p : UInt64 × Nat} (hp : p ∈ c.waiters.pending) :
    p ∈ (c.step e).waiters.pending ∨ Leaves p e := by
  obtain ⟨u, hu, hi, htoken⟩ := h.orderly.waiter hp
  have huh := task_mem_holders.mpr hu
  refine (left_step hp).imp_right fun hr => ?_
  cases hr with
  | answered hf => exact .answered hf
  | ended he => exact .ended he
  | given ht ha hf hft he =>
    obtain rfl : u = _ := Holder.task.inj (h.eq huh (task_mem_holders.mpr ht) htoken
      (by simp [Holder.token?, hf, Work.frame?, hft]))
    rw [hi] at he
    rcases he with rfl | rfl
    · exact .resumed
    · exact .cancelled
  | stopped hk hkt =>
    cases h.eq huh (cursor_mem_holders.mpr hk) htoken (congrArg some hkt)
  | dropped hd => cases h.eq huh (dropped_mem_holders.mpr hd) htoken rfl

theorem Spares.of_eq (h : d.finished = c.finished) : Spares c d :=
  fun _ hr => .inl (h ▸ hr)

theorem Spares.of_concat {outcome : Except Error Outcome}
    (h : d.finished = c.finished ++ [(id, outcome)])
    (ho : ∀ e, outcome = .error e → e.collides = false) : Spares c d := by
  intro r hr
  rw [h] at hr
  rcases List.mem_append.mp hr with hr | hr
  · exact .inl hr
  · obtain rfl := List.mem_singleton.mp hr
    exact .inr ho

theorem Spares.of_finished {b : Client} (h : Spares b d) (hb : b.finished = c.finished) :
    Spares c d := fun r hr => hb ▸ h r hr

theorem Tried.spares (h : Tried c id token d) (hn : token ∉ c.waiters.pending.map Prod.fst) :
    Spares c d := by
  rcases h with h | ⟨o, h, ho⟩
  · exact .of_eq h
  · refine .of_concat h fun e he => ?_
    rcases Waiters.register_eq_error_iff.mp (ho e he) with ⟨-, rfl⟩ | ⟨-, hm, -⟩
    · rfl
    · exact absurd hm hn

theorem Task.collides_refusal (t : Task) : t.refusal.collides = false := by
  unfold Task.refusal
  cases t.fault with
  | none => rfl
  | some fault => cases fault <;> rfl

theorem spares_refuse (c : Client) (t : Task) : Spares c (c.refuse t) := by
  have hd := finished_dismiss c t
  have ho : ∀ e, (.error t.refusal : Except Error Outcome) = .error e → e.collides = false := by
    rintro _ ⟨⟩
    exact Task.collides_refusal t
  unfold refuse
  dsimp only
  split
  · exact .of_concat (congrArg (· ++ _) hd) ho
  · exact .of_concat (congrArg (· ++ _) hd) ho
  · exact .of_concat (congrArg (· ++ _) ((finished_abandon _ _).trans hd)) ho
  · exact .of_concat (congrArg (· ++ _) hd) (by simp)
  · exact .of_eq hd
  · exact .of_concat (congrArg (· ++ _) hd) ho

theorem spares_complete (c : Client) (t : Task) : Spares c (c.complete t) := by
  have hd := finished_dismiss c t
  unfold complete
  dsimp only
  split
  · exact .of_concat (congrArg (· ++ _) hd) (by simp)
  · exact .of_concat (congrArg (· ++ _) hd) (by simp)
  · exact .of_concat (congrArg (· ++ _) hd) (by simp)
  · exact .of_eq hd

theorem token_fed (k : Cursor) (r : Response) : (k.fed r).token = k.token := by
  unfold Cursor.fed
  split <;> rfl

theorem spares_conclude (hv : Vacant c (.resume t.id)) (apt : t.Apt) {f : Frame}
    (ht : c.task? t.id = some t) (hp : t.phase = .written) (ha : t.purpose.awaits = true)
    (hf : t.work = .frame f) (hn : t.answer = some a) (fair : a.Fair) :
    Spares c (c.resume t.id) := by
  have hr := resume_answered ht hp ha hf hn
  have hd := finished_dismiss c t
  have hw : (c.dismiss t).waiters = c.waiters.remove f.token := by simp [dismiss, ha, hf]
  have hfree {r : Response} {k : Cursor} (hk : t.purpose.cursor? = some k) :
      (k.fed r).token ∉ (c.dismiss t).waiters.pending.map Prod.fst := by
    rw [token_fed, cursor_token_of_apt apt hf hk, hw]
    exact hv _ _ (.resume (mem_of_task? ht).1 ha hf)
  cases hacc : a.accepted t.purpose.codes t.purpose.fault with
  | error e =>
    refine .of_concat (by rw [hr, proceed_failed ha hacc, hd]) ?_
    rintro _ ⟨⟩
    exact fair.accepted _ hacc
  | ok r =>
    have htakes := takes_of_accepted hr ha hacc
    unfold Takes at htakes
    split at htakes
    · exact .of_concat htakes (by simp)
    · exact .of_concat htakes (by simp)
    · exact .of_concat htakes (by simp)
    · rename_i k hk
      rw [htakes]
      exact ((tried_advance _ _ _).spares (hfree (by rw [hk]; rfl))).of_finished hd
    · rename_i k rows hk
      rw [htakes]
      exact ((tried_gather _ _ _ _).spares (hfree (by rw [hk]; rfl))).of_finished hd
    · cases htakes

theorem spares_resume (hv : Vacant c (.resume id)) (apt : ∀ t ∈ c.tasks, t.Apt)
    (fair : ∀ t ∈ c.tasks, ∀ a, t.answer = some a → a.Fair) :
    Spares c (c.step (.resume id)) := by
  cases ht : c.task? id with
  | none => exact .of_eq (by simp [Client.step, Client.resume, ht])
  | some t =>
    obtain ⟨hm, rfl⟩ := mem_of_task? ht
    have hs : c.step (.resume t.id) = c.resume t.id := rfl
    unfold Client.resume at hs
    rw [ht] at hs
    dsimp only at hs
    split at hs
    · exact hs ▸ spares_refuse c t
    · exact hs ▸ spares_complete c t
    · rename_i f a hp ha hf hn
      exact spares_conclude hv (apt t hm) ht hp ha hf hn (fair t hm a hn)
    · exact .of_eq (congrArg finished hs)

theorem spares_call {call : Call} (hv : Vacant c (.call call)) : Spares c (c.call call) := by
  let d : Client := { c with begun := c.begun + 1 }
  cases call with
  | run q o =>
    have hs : c.call (.run q o) = d.beginRun c.begun q o := rfl
    rw [hs]
    cases hc : c.closed with
    | true =>
      rw [beginRun_closed (c := d) hc]
      refine .of_concat rfl ?_
      rintro _ ⟨⟩
      rfl
    | false =>
      cases ho : o.noreply with
      | true =>
        rw [beginRun_noreply (c := d) hc q ho]
        exact .of_eq rfl
      | false =>
        rw [beginRun_request (c := d) hc q ho]
        have hf : Frame.start c.issue.1 q (o.entries c.db) ∈ c.opens (.call (.run q o)) := by
          simp [opens, hc]
        have hn := hv _ _ (.opens hf)
        exact ((tried_requestOrFail d.issue.2 _ _ _).spares hn).of_finished rfl
  | noreplyWait | serverInfo =>
    have hn := hv _ _ (.opens List.mem_cons_self)
    exact ((tried_requestOrFail d.issue.2 _ _ _).spares hn).of_finished rfl
  | next other =>
    cases hk : c.cursor? other with
    | none => exact .of_eq (by simp [Client.call, hk])
    | some k =>
      obtain rfl := token_of_cursor? hk
      rw [call_next hk]
      have hn := hv _ _ (.next (mem_of_cursor? hk))
      exact ((tried_advance (d.take k.token) _ _).spares hn).of_finished rfl
  | collect other =>
    cases hk : c.cursor? other with
    | none => exact .of_eq (by simp [Client.call, hk])
    | some k =>
      obtain rfl := token_of_cursor? hk
      rw [call_collect hk]
      have hn := hv _ _ (.collect (mem_of_cursor? hk))
      exact ((tried_gather (d.take k.token) _ _ _).spares hn).of_finished rfl
  | stop other =>
    cases hk : c.cursor? other with
    | none => exact .of_eq (by simp [Client.call, hk])
    | some k =>
      rw [call_stop hk]
      unfold beginStop
      split
      · exact .of_concat rfl (by simp)
      · dsimp only
        split
        · exact .of_concat rfl (by simp)
        · exact .of_eq rfl
  | close =>
    simp only [Client.call, beginClose]
    split
    · exact .of_concat rfl (by simp)
    · exact .of_eq (finished_answerAll _ _)

theorem finished_cancel (c : Client) (id : Nat) : (c.cancel id).finished = c.finished := by
  unfold Client.cancel
  split
  · rfl
  · split
    · exact finished_dismiss _ _
    · exact finished_dismiss _ _
    · exact (finished_abandon _ _).trans (finished_dismiss _ _)
    · rfl
    · exact finished_dismiss _ _

theorem spares_step (hv : Vacant c e) (apt : ∀ t ∈ c.tasks, t.Apt)
    (fair : ∀ t ∈ c.tasks, ∀ a, t.answer = some a → a.Fair) : Spares c (c.step e) := by
  cases e with
  | call call => exact spares_call hv
  | dropCursor token =>
    refine .of_eq ?_
    simp only [Client.step, Client.dropCursor]
    split
    · rfl
    · exact finished_abandon _ _
  | useDb name => exact .of_eq rfl
  | cancel id => exact .of_eq (finished_cancel c id)
  | stopDropped | enqueue | write | failWrite | receive | endOfStream =>
    exact .of_eq (step_inner c rfl).1
  | resume id => exact spares_resume hv apt fair

structure Peaceful (c : Client) : Prop where
  finished : ∀ r ∈ c.finished, ∀ e, r.2 = .error e → e.collides = false
  answers : ∀ t ∈ c.tasks, ∀ a, t.answer = some a → a.Fair

theorem Marked.fair (h : Marked c e t u) (ht : ∀ a, t.answer = some a → a.Fair) :
    ∀ a, u.answer = some a → a.Fair := by
  intro a ha
  cases h with
  | same | queued | barred | written | missed | failed => exact ht a ha
  | answered f =>
    obtain rfl := Option.some.inj ha
    exact f.fair_answer
  | ended =>
    obtain rfl := Option.some.inj ha
    rintro _ ⟨⟩
    rfl

theorem Peaceful.step (h : Peaceful c) (hr : Regular c)
    (fresh : (c.step e).issued < UInt64.size) : Peaceful (c.step e) where
  finished := by
    intro r hm
    rcases spares_step (hr.vacant fresh) hr.apt h.answers r hm with hm | ho
    · exact h.finished r hm
    · exact ho
  answers := by
    intro u hu
    have hnew {id : Nat} (hf : u.Fresh id) : ∀ a, u.answer = some a → a.Fair := by
      intro a ha
      rw [hf.answer] at ha
      cases ha
    rcases (turn_step hr.toExclusive e).origin hu with ⟨t, ht, hm⟩ | hf | ⟨t, -, -, hf⟩
    · exact hm.fair (h.answers t ht)
    · exact hnew hf
    · exact hnew hf

theorem peaceful_after (db : Option String) {events : List Event}
    (fresh : (after { db } events).issued < UInt64.size) : Peaceful (after { db } events) := by
  induction events, fresh using induct_fresh with
  | nil => exact ⟨List.forall_mem_nil _, List.forall_mem_nil _⟩
  | concat events e _ fresh hr ih =>
    rw [after_concat] at fresh ⊢
    exact ih.step hr fresh

/-- Requests do not come in each other's way. No call is refused because its token is in use, since
what is entered into the table is not there; and a waiter that goes out of the table does so by its
answer, by its own call or together with all others, and not because a cursor is stopped or
dropped, or another call ends. -/
structure Distinct (c : Client) (events : List Event) : Prop where
  refused : ∀ id n, (id, .error (.protocol (.tokenInUse n))) ∉ (c.after events).finished
  enters : ∀ before e later, before ++ e :: later = events →
    Vacant (c.after before) e ∧ ∀ p ∈ ((c.after before).step e).waiters.pending,
      p ∈ (c.after before).waiters.pending ∨ ∃ w, Registers (c.after before) e p.1 w
  leaves : ∀ before e later, before ++ e :: later = events →
    ∀ p ∈ (c.after before).waiters.pending,
      p ∈ ((c.after before).step e).waiters.pending ∨ Leaves p e

theorem tokens_distinct (db : Option String) (events : List Event)
    (fresh : (after { db } events).issued < UInt64.size) : Distinct { db } events where
  refused := by
    intro id n hm
    have hn := (peaceful_after db fresh).finished _ hm _ rfl
    cases hn
  enters := by
    rintro before e later rfl
    have hr := regular_before fresh
    rw [List.append_cons] at fresh
    have hle := issued_le_append { db } (before ++ [e]) later
    rw [after_concat] at hle
    exact ⟨hr.vacant (Nat.lt_of_le_of_lt hle fresh), fun _ hp => hr.registers hp⟩
  leaves := by
    rintro before e later rfl p hp
    exact (regular_before fresh).leaves hp

theorem tokens_distinct_of_dropped_cursor :
    let batch : Frame := ⟨1, .array [.int 3, .array []]⟩
    let events : List Event := [.call (.run (.datum .null) {}), .enqueue 0, .write, .receive batch,
      .resume 0, .call (.next 1), .call .serverInfo, .cancel 1, .dropCursor 1, .stopDropped 1,
      .enqueue 3, .write, .receive batch]
    (after {} events).issued < UInt64.size ∧ (after {} events).waiters.pending = [(2, 2)] ∧
      Distinct {} events := by
  intro batch events
  have fresh : (after {} events).issued < UInt64.size := by decide +kernel
  exact ⟨fresh, by decide +kernel, tokens_distinct none events fresh⟩

end Client

end ReqlDriver
