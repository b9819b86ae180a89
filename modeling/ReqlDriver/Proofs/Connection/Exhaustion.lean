import ReqlDriver.Proofs.Connection.History

namespace ReqlDriver

def Purpose.stops : Purpose → Bool
  | stop _ => true
  | abandon => true
  | _ => false

def Cursor.Spent (k : Cursor) : Prop := k.exhausted = true ∧ k.buffer = []

namespace Holder

def Silent : Holder → Prop
  | cursor k => k.exhausted = true
  | task t => t.phase = .refused ∧ t.purpose.stops = true
  | dropped _ => False

def Spent : Holder → Prop
  | cursor k => k.Spent
  | task t => ∃ k, t.purpose = .stop k
  | dropped _ => False

end Holder

namespace Client

structure Lasts (P : Holder → Prop) : Prop where
  marked : ∀ {c : Client} {e : Event} {t u : Task}, Regular c → t ∈ c.tasks → Marked c e t u →
    P (.task t) → P (.task u)
  passes : ∀ {c : Client} {e : Event} {i j : Holder} {o : Option Holder}, Passes c e i o →
    (∀ t, i = .task t → t.Apt) → o = some j → P i → P j

structure Settled (P : Holder → Prop) (token : UInt64) (c : Client) : Prop where
  issued : token.toNat ≤ c.issued
  holders : ∀ j ∈ c.holders, j.token? = some token → P j

structure Returns (c : Client) (call : Call) (outcome : Except Error Outcome) : Prop where
  finished : (c.call call).finished = c.finished ++ [(c.begun, outcome)]
  tasks : (c.call call).tasks = c.tasks
  queue : (c.call call).queue = c.queue

def NoMore (token : UInt64) (c : Client) : Prop :=
  ∀ k, c.cursor? token = some k → c.Returns (.next token) (.ok (.row none))

def Ends (token : UInt64) (c : Client) (e : Event) : Prop :=
  (∃ id, (c.step e).finished = c.finished ++ [(id, .ok (.row none))]) ∧
    (e = .call (.next token) ∨
      ∃ t k, t ∈ c.tasks ∧ e = .resume t.id ∧ t.purpose = .next k ∧ k.token = token)

variable {c : Client} {e : Event} {k : Cursor} {t : Task} {j : Holder} {o : Option Holder}
  {P : Holder → Prop} {token : UInt64}

theorem Advanced.silent {closed : Bool} {id : Nat} (h : Advanced closed id k j)
    (he : k.exhausted = true) : j.Silent := by
  cases h with
  | row => exact he
  | ended => exact he
  | refused _ hn | asked _ hn =>
    rw [he] at hn
    cases hn

theorem Advanced.spent {closed : Bool} {id : Nat} (h : Advanced closed id k j) (hk : k.Spent) :
    j.Spent := by
  cases h with
  | row hb =>
    rw [hk.2] at hb
    cases hb
  | ended => exact hk
  | refused _ hn | asked _ hn =>
    rw [hk.1] at hn
    cases hn

theorem Gathered.eq_none {closed : Bool} {id : Nat} {rows : List Datum}
    (h : Gathered closed id k rows o) (he : k.exhausted = true) : o = none := by
  cases h with
  | ended => rfl
  | refused hn | asked hn =>
    rw [he] at hn
    cases hn

theorem remains_eq_none (he : k.exhausted = true) : k.remains = none := by
  simp [Cursor.remains, he]

theorem Passes.of_exhausted (h : Passes c e (.cursor k) o) (he : k.exhausted = true) :
    o = none ∨ o = some (.cursor k.stopped) ∨ ∃ j id, o = some j ∧ Advanced c.closed id k j := by
  cases h with
  | next hj => exact .inr (.inr ⟨_, _, rfl, hj⟩)
  | collect hg => exact .inl (hg.eq_none he)
  | stopped => exact .inr (.inl rfl)
  | stop hn =>
    rw [he] at hn
    cases hn
  | drop => exact .inl (remains_eq_none he)

theorem leaves_of_stops (ht : t.Apt) (hs : t.purpose.stops = true)
    (ho : t.purpose.leaves = some j) : ∃ k : Cursor, k.Spent ∧ j = .cursor k := by
  cases hp : t.purpose with
  | stop k =>
    rw [hp] at ho
    exact ⟨k, stop_spent ht hp, (Option.some.inj ho).symm⟩
  | abandon =>
    rw [hp] at ho
    cases ho
  | _ =>
    rw [hp] at hs
    cases hs

theorem silent_lasts : Lasts Holder.Silent where
  marked := by
    rintro c e t u hr ht hm ⟨hp, hs⟩
    have hu := hr.phase_marked ht hm (by simp [hp]) (by simp [hp])
    exact ⟨hu.trans hp, by rw [hm.purpose_eq]; exact hs⟩
  passes := by
    intro c e i j o hp ha ho h
    cases i with
    | cursor k =>
      rcases hp.of_exhausted h with rfl | rfl | ⟨j, id, rfl, hj⟩
      · cases ho
      · obtain rfl := Option.some.inj ho
        rfl
      · obtain rfl := Option.some.inj ho
        exact hj.silent h
    | task t =>
      cases hp with
      | cancel | refuse =>
        obtain ⟨k, hk, rfl⟩ := leaves_of_stops (ha t rfl) h.2 ho
        exact hk.1
      | complete hw | conclude hw =>
        rw [h.1] at hw
        cases hw
    | dropped d => cases h

theorem spent_lasts : Lasts Holder.Spent where
  marked _ _ hm := fun ⟨k, hk⟩ => ⟨k, hm.purpose_eq.trans hk⟩
  passes := by
    intro c e i j o hp ha ho h
    cases i with
    | cursor k =>
      rcases hp.of_exhausted h.1 with rfl | rfl | ⟨j, id, rfl, hj⟩
      · cases ho
      · obtain rfl := Option.some.inj ho
        exact ⟨rfl, rfl⟩
      · obtain rfl := Option.some.inj ho
        exact hj.spent h
    | task t =>
      obtain ⟨k, hk⟩ := h
      cases hp with
      | cancel | refuse | complete =>
        obtain ⟨k, hk, rfl⟩ := leaves_of_stops (ha t rfl) (by rw [hk]; rfl) ho
        exact hk
      | conclude _ _ _ hc => cases hc <;> simp_all
    | dropped d => cases h

theorem Settled.step (h : Settled P token c) (hP : Lasts P) (hr : Regular c)
    (fresh : (c.step e).issued < UInt64.size) : Settled P token (c.step e) where
  issued := by
    rw [issued_step]
    exact Nat.le_add_right_of_le h.issued
  holders := by
    refine hr.carry fresh ⟨?_, ?_, ?_, ?_, ?_⟩ h.holders
    · exact fun k _ _ hk => hk
    · exact fun _ hd => hd
    · exact fun t u ht _ hm hp => hP.marked hr ht hm hp
    · -- a new task has a token that had not been handed out
      exact fun t _ _ hlt => absurd h.issued (Nat.not_le_of_lt hlt)
    · exact fun i o j _ _ ha hp ho hi => hP.passes hp ha ho hi

theorem Settled.after (h : Settled P token c) (hP : Lasts P) (hr : Regular c)
    {events : List Event} (fresh : (c.after events).issued < UInt64.size) :
    Settled P token (c.after events) := by
  induction events generalizing c with
  | nil => exact h
  | cons e r ih =>
    have hs := Nat.lt_of_le_of_lt (issued_le_after (c.step e) r) fresh
    exact ih (h.step hP hr hs) (hr.step hs) fresh

theorem Settled.queued_eq_nil (h : Settled Holder.Silent token c) (hr : Regular c)
    {events : List Event} (fresh : (c.after events).issued < UInt64.size) :
    on token (c.queued events) = [] := by
  induction events generalizing c with
  | nil => rfl
  | cons e r ih =>
    have hs := Nat.lt_of_le_of_lt (issued_le_after (c.step e) r) fresh
    rw [queued, on_append, ih (h.step silent_lasts hr hs) (hr.step hs) fresh, List.append_nil]
    rcases queues_on c e token with hq | ⟨t, f, ht, hf, hft, -, ha, -⟩
    · exact hq
    · have htoken : (Holder.task t).token? = some token := by
        simp [Holder.token?, hf, Work.frame?, hft]
      have hp := (h.holders _ ht htoken).1
      rw [ha.phase] at hp
      cases hp

theorem Exclusive.settled (h : Exclusive c) (hj : j ∈ c.holders) (ht : j.token? = some token)
    (hP : P j) : Settled P token c where
  issued := h.orderly.token_le hj ht
  holders := fun _ hi hit => h.eq hj hi ht hit ▸ hP

theorem Exclusive.settled_cursor (h : Exclusive c) (hk : c.cursor? token = some k)
    (hP : P (.cursor k)) : Settled P token c :=
  h.settled (cursor_mem_holders.mpr (mem_of_cursor? hk)) (congrArg some (token_of_cursor? hk)) hP

theorem Settled.of_cursor? (h : Settled P token c) (hk : c.cursor? token = some k) :
    P (.cursor k) :=
  h.holders _ (cursor_mem_holders.mpr (mem_of_cursor? hk)) (congrArg some (token_of_cursor? hk))

theorem Returns.of_finish {d : Client} {call : Call} {outcome : Except Error Outcome}
    (h : c.call call = d.finish c.begun outcome) (hf : d.finished = c.finished)
    (ht : d.tasks = c.tasks) (hq : d.queue = c.queue) : c.Returns call outcome := by
  refine ⟨?_, ?_, ?_⟩ <;> rw [h]
  · exact congrArg (· ++ _) hf
  · exact ht
  · exact hq

theorem Settled.noMore (h : Settled Holder.Spent token c) : NoMore token c := by
  intro k hk
  have hs : k.Spent := h.of_cursor? hk
  have hc := call_next hk
  rw [advance_ended _ _ hs.2 hs.1] at hc
  exact .of_finish hc rfl rfl rfl

theorem returns_stop (hk : c.cursor? token = some k) (he : k.exhausted = true) :
    c.Returns (.stop token) (.ok .done) := by
  have hc := call_stop hk
  rw [beginStop_exhausted _ _ he] at hc
  exact .of_finish hc rfl rfl rfl

theorem Regular.settled_stop (h : Regular c) (hk : c.cursor? token = some k)
    (fresh : (c.step (.call (.stop token))).issued < UInt64.size) :
    Settled Holder.Spent token (c.step (.call (.stop token))) := by
  have hs : c.step (.call (.stop token)) = _ := call_stop hk
  have ht := token_of_cursor? hk
  obtain ⟨j, hj, hjt, hspent⟩ : ∃ j ∈ (c.step (.call (.stop token))).holders,
      j.token? = some token ∧ j.Spent := by
    rw [hs]
    let d : Client := { c with begun := c.begun + 1 }
    cases he : k.exhausted with
    | true =>
      refine ⟨.cursor k.stopped, ?_, congrArg some ht, rfl, rfl⟩
      rw [beginStop_exhausted _ _ he]
      simp
    | false =>
      cases hc : c.closed with
      | true =>
        refine ⟨.cursor k.stopped, ?_, congrArg some ht, rfl, rfl⟩
        rw [beginStop_closed (c := d.take token) hc _ he]
        simp
      | false =>
        refine ⟨.task (.sending c.begun (.stop k.stopped) (Frame.control k.token .stop)), ?_,
          congrArg some ht, _, rfl⟩
        rw [beginStop_tell (c := d.take token) hc _ he, tellStop, holders_spawn]
        exact Multiset.mem_cons_self _ _
  exact (h.step fresh).toExclusive.settled hj hjt hspent

theorem spent_of_advance {id n : Nat}
    (h : (c.advance id k).finished = c.finished ++ [(n, .ok (.row none))]) :
    k.Spent ∧ .cursor k ∈ (c.advance id k).holders := by
  have hlast {r : Nat × Except Error Outcome}
      (hr : c.finished ++ [r] = c.finished ++ [(n, .ok (.row none))]) :
      r.2 = .ok (.row none) := by
    rw [List.append_cancel_left_eq] at hr
    rw [List.singleton_inj.mp hr]
  cases hb : k.buffer with
  | cons d r =>
    rw [advance_row c id hb] at h
    cases hlast h
  | nil =>
    cases he : k.exhausted with
    | true =>
      rw [advance_ended c id hb he]
      exact ⟨⟨he, hb⟩, by simp⟩
    | false =>
      cases hr : c.request id (.next k) (Frame.control k.token .fetch) with
      | ok c' =>
        rw [advance_fetch c id hb he hr, finished_request hr] at h
        simp at h
      | error e =>
        rw [advance_refused c id hb he hr] at h
        cases hlast h

theorem resume_next (ht : c.task? t.id = some t) (hp : t.purpose = .next k) :
    c.resume t.id = c ∨
      (∃ j e, c.resume t.id = ((c.dismiss t).hold j).finish t.id (.error e)) ∨
      ∃ a j, k.receive a = (j, none) ∧ c.resume t.id = (c.dismiss t).advance t.id j := by
  unfold Client.resume
  rw [ht]
  dsimp only
  split
  · refine .inr (.inl ⟨k, t.refusal, ?_⟩)
    simp only [Client.refuse, hp]
  · rename_i ha
    rw [hp] at ha
    cases ha
  · rename_i f a _ _ _ _
    rcases hr : k.receive a with ⟨j, _ | e⟩
    · refine .inr (.inr ⟨a, j, hr, ?_⟩)
      simp only [Client.conclude, Client.proceed, hp, hr]
    · refine .inr (.inl ⟨j, e, ?_⟩)
      simp only [Client.conclude, Client.proceed, hp, hr]
  · exact .inl rfl

theorem Regular.settled_ends (h : Regular c) (fresh : (c.step e).issued < UInt64.size)
    (he : Ends token c e) : Settled Holder.Spent token (c.step e) := by
  obtain ⟨⟨n, hn⟩, he⟩ := he
  have hr := (h.step fresh).toExclusive
  rcases he with rfl | ⟨t, k, ht, rfl, hp, rfl⟩
  · cases hk : c.cursor? token with
    | none =>
      have hs : c.step (.call (.next token)) = c := by simp [Client.step, Client.call, hk]
      simp [hs] at hn
    | some k =>
      have hs : c.step (.call (.next token)) = _ := call_next hk
      rw [hs] at hn hr ⊢
      obtain ⟨hspent, hm⟩ := spent_of_advance hn
      exact hr.settled hm (congrArg some (token_of_cursor? hk)) hspent
  · have hd := finished_dismiss c t
    rcases resume_next (h.orderly.task?_eq ht) hp with hs | ⟨j, e, hs⟩ | ⟨a, j, ha, hs⟩
    · simp [Client.step, hs] at hn
    · have hn : c.finished ++ [(t.id, .error e)] = c.finished ++ [(n, .ok (.row none))] := by
        rw [← hn, ← hd, Client.step, hs]
        rfl
      simp at hn
    · have hs : c.step (.resume t.id) = _ := hs
      rw [hs] at hn hr ⊢
      rw [← hd] at hn
      obtain ⟨hspent, hm⟩ := spent_of_advance hn
      exact hr.settled hm (congrArg some (token_of_receive ha)) hspent

end Client

end ReqlDriver
