import ReqlDriver.Proofs.Connection.Table

namespace ReqlDriver

namespace Client

structure Lined (c : Client) : Prop where
  orderly : Orderly c
  ids : (c.queue.map Prod.snd).Nodup
  begun : ∀ w ∈ c.queue, w.2 < c.begun
  queued : ∀ w ∈ c.queue, ∀ t ∈ c.tasks, t.id = w.2 → t.phase = .queued

variable {c : Client} {e : Event} {k : Cursor} {t u : Task} {h : Holder} {o : Option Holder}

theorem lined_start (db : Option String) : Lined { db } :=
  ⟨orderly_start db, .nil, List.forall_mem_nil _, List.forall_mem_nil _⟩

theorem Lined.waited (h : Lined c) (hu : u ∈ (c.step e).tasks) {w : Work × Nat}
    (hw : w ∈ c.queue) (hi : u.id = w.2) :
    ∃ t ∈ c.tasks, t.id = w.2 ∧ t.phase = .queued ∧ Marked c e t u := by
  rcases h.orderly.origin hu with ⟨t, ht, hm⟩ | hf | ⟨t, ht, hp, hf⟩
  · have hi : t.id = w.2 := hm.id_eq.symm.trans hi
    exact ⟨t, ht, hi, h.queued w hw t ht hi, hm⟩
  · have hb := h.begun w hw
    rw [← hi, hf] at hb
    exact absurd hb (Nat.lt_irrefl _)
  · rw [h.queued w hw t ht (hf.symm.trans hi)] at hp
    rcases hp with hp | hp <;> cases hp

theorem Marked.phase_quiet (hm : Marked c e t u) (he : e.writes = false) (hp : t.phase = .queued) :
    u.phase = .queued := by
  cases hm with
  | same | answered | ended => exact hp
  | queued => rfl
  | barred hu =>
    rw [hp] at hu
    cases hu
  | written | missed | failed => cases he

theorem Lined.writes_marked (h : Lined c) (ht : t ∈ c.tasks) (hm : Marked c e t u)
    (he : e.writes = true) : u = t ∨ t.phase = .queued := by
  cases hm with
  | same => exact .inl rfl
  | queued | barred | answered => cases he
  | ended hn =>
    rw [ends_of_writes he] at hn
    cases hn
  | written hq | failed _ hq => exact .inr (h.queued _ (hq ▸ List.mem_cons_self) t ht rfl)
  | missed hq hi =>
    obtain ⟨w, hw, hi⟩ := List.mem_map.mp hi
    exact .inr (h.queued w (hq ▸ List.mem_cons_of_mem _ hw) t ht hi.symm)

theorem Lined.phase_marked (h : Lined c) (ht : t ∈ c.tasks) (hm : Marked c e t u)
    (hu : t.phase ≠ .unsent) (hp : t.phase ≠ .queued) : u.phase = t.phase := by
  by_cases he : e.writes = true
  · rcases h.writes_marked ht hm he with rfl | hq
    · rfl
    · exact absurd hq hp
  · cases hm with
    | same | answered | ended => rfl
    | queued ha => exact absurd ha.phase hu
    | barred hn => exact absurd hn hu
    | written | missed | failed => exact absurd rfl he

theorem Marked.phase_written {f : Frame} {id : Nat} {rest : List (Work × Nat)}
    (hm : Marked c e t u) (hq : c.queue = (.frame f, id) :: rest) (he : e.writes = true)
    (hi : t.id ≠ id) (hp : t.phase = .queued) : u.phase = .queued := by
  cases hm with
  | same | answered | ended => exact hp
  | queued => rfl
  | barred => cases he
  | written hq' =>
    rw [hq] at hq'
    obtain ⟨h, -⟩ := List.cons.inj hq'
    exact absurd (Prod.mk.inj h).2.symm hi
  | missed hq' =>
    rw [hq] at hq'
    cases hq'
  | failed _ hq' =>
    rw [hq] at hq'
    obtain ⟨h, -⟩ := List.cons.inj hq'
    exact absurd (Prod.mk.inj h).2.symm hi

theorem Marked.phase_admitted (hm : Marked c e t u) (he : e = .enqueue t.id)
    (ha : c.Admits t) : u.phase = .queued := by
  cases hm with
  | same hn => exact absurd ha (hn he)
  | queued => rfl
  | barred _ hs =>
    rw [ha.shut] at hs
    cases hs
  | ended hn =>
    rw [he] at hn
    cases hn
  | written | missed | failed | answered => cases he

theorem Lined.admitted (h : Lined c) (ht : c.task? t.id = some t) (ha : c.Admits t)
    (hu : u ∈ (c.step (.enqueue t.id)).tasks) (hi : u.id = t.id) : u.phase = .queued := by
  have hm := (mem_of_task? ht).1
  rcases h.orderly.origin hu with ⟨v, hv, hmark⟩ | hf | ⟨v, hv, hp, hf⟩
  · obtain rfl := eq_of_nodup_map h.orderly.ids hv hm (hmark.id_eq.symm.trans hi)
    exact hmark.phase_admitted rfl ha
  · have hb := h.orderly.begun t hm
    rw [← hi, hf] at hb
    exact absurd hb (Nat.lt_irrefl _)
  · obtain rfl := eq_of_nodup_map h.orderly.ids hv hm (hf.symm.trans hi)
    rw [ha.phase] at hp
    rcases hp with hp | hp <;> cases hp

theorem Lined.phase_step (h : Lined c) (e : Event) : ∀ w ∈ (c.step e).queue,
    ∀ u ∈ (c.step e).tasks, u.id = w.2 → u.phase = .queued := by
  intro w hw u hu hi
  obtain ⟨s, hs, hq⟩ : ∃ s, Stands c e s ∧ (c.step e).queue = s.queue := ⟨_, stands_step c e, rfl⟩
  rw [hq] at hw
  clear hq
  have hrest {f : Frame} {id : Nat} {rest : List (Work × Nat)} (he : e.writes = true)
      (hq : c.queue = (.frame f, id) :: rest) (hw : w ∈ rest) : u.phase = .queued := by
    obtain ⟨t, -, hti, hp, hm⟩ := h.waited hu (hq ▸ List.mem_cons_of_mem _ hw) hi
    have hn := h.ids
    rw [hq] at hn
    apply hm.phase_written hq he _ hp
    rintro rfl
    exact (List.nodup_cons.mp hn).1 (List.mem_map.mpr ⟨w, hw, hti.symm⟩)
  cases hs with
  | quiet he =>
    obtain ⟨t, -, -, hp, hm⟩ := h.waited hu hw hi
    exact hm.phase_quiet he hp
  | queued ht ha =>
    rcases List.mem_append.mp hw with hw | hw
    · obtain ⟨t, -, -, hp, hm⟩ := h.waited hu hw hi
      exact hm.phase_quiet rfl hp
    · obtain rfl := List.mem_singleton.mp hw
      exact h.admitted ht ha hu hi
  | idle he hq => simp [standing, hq] at hw
  | written hq => exact hrest rfl hq hw
  | shut hq => cases hw
  | failed hq => exact hrest rfl hq hw
  | spared hq =>
    obtain ⟨t, -, -, hp, hm⟩ := h.waited hu hw hi
    cases hm with
    | same | ended => exact hp
    | failed _ hq' =>
      rw [hq] at hq'
      cases hq'

theorem Lined.ids_step (h : Lined c) (e : Event) :
    ((c.step e).queue.map Prod.snd).Nodup ∧ ∀ w ∈ (c.step e).queue, w.2 < (c.step e).begun := by
  obtain ⟨s, hs, hq⟩ : ∃ s, Stands c e s ∧ (c.step e).queue = s.queue := ⟨_, stands_step c e, rfl⟩
  have hb := begun_le_step c e
  have hold {q : List (Work × Nat)} (hsub : q.Sublist c.queue) :
      (q.map Prod.snd).Nodup ∧ ∀ w ∈ q, w.2 < (c.step e).begun :=
    ⟨h.ids.sublist (hsub.map _), fun w hw => Nat.lt_of_lt_of_le (h.begun w (hsub.subset hw)) hb⟩
  rw [hq]
  clear hq
  cases hs with
  | quiet | idle | spared => exact hold (List.Sublist.refl _)
  | queued ht ha =>
    rename_i t
    have hm := (mem_of_task? ht).1
    obtain ⟨hn, hlt⟩ := hold (List.Sublist.refl _)
    constructor
    · simp only [List.map_append, List.nodup_append]
      refine ⟨hn, by simp, ?_⟩
      rintro i hi j hj rfl
      obtain rfl := List.mem_singleton.mp hj
      obtain ⟨w, hw, hwi⟩ := List.mem_map.mp hi
      have hp := h.queued w hw t hm hwi.symm
      rw [ha.phase] at hp
      cases hp
    · intro w hw
      rcases List.mem_append.mp hw with hw | hw
      · exact hlt w hw
      · obtain rfl := List.mem_singleton.mp hw
        exact Nat.lt_of_lt_of_le (h.orderly.begun t hm) hb
  | written hq | failed hq => exact hold (hq ▸ List.sublist_cons_self _ _)
  | shut => exact hold (List.nil_sublist _)

theorem Lined.step (h : Lined c) (e : Event) : Lined (c.step e) :=
  ⟨h.orderly.step e, (h.ids_step e).1, (h.ids_step e).2, h.phase_step e⟩

theorem Lined.after (h : Lined c) (events : List Event) : Lined (c.after events) := by
  induction events generalizing c with
  | nil => exact h
  | cons e r ih => exact ih (h.step e)

theorem Reachable.lined (h : Reachable c) : Lined c := by
  obtain ⟨db, events, rfl⟩ := h
  exact (lined_start db).after events

structure Regular (c : Client) : Prop extends Exclusive c, Lined c where
  apt : ∀ t ∈ c.tasks, t.Apt

theorem regular_start (db : Option String) : Regular { db } :=
  { lined_start db with
    tokens := by simp [holders]
    apt := List.forall_mem_nil _ }

theorem stop_spent (ht : t.Apt) (hk : t.purpose = .stop k) :
    k.exhausted = true ∧ k.buffer = [] := by
  obtain ⟨id, purpose, work⟩ := t
  obtain rfl := hk
  cases ht with
  | stop he hb => exact ⟨he, hb⟩

theorem Advanced.token {closed : Bool} {id : Nat} (hj : Advanced closed id k h) :
    h.token? = some k.token := by
  cases hj <;> rfl

theorem remains_token (ho : k.remains = some h) : h.token? = some k.token := by
  unfold Cursor.remains at ho
  split at ho
  · cases ho
  · obtain rfl := Option.some.inj ho
    rfl

theorem Gathered.token {closed : Bool} {id : Nat} {rows : List Datum}
    (hg : Gathered closed id k rows o) (ho : o = some h) : h.token? = some k.token := by
  cases hg with
  | ended => cases ho
  | refused =>
    obtain rfl := Option.some.inj ho
    rfl
  | asked =>
    obtain rfl := Option.some.inj ho
    rfl

theorem leaves_token (ht : t.Apt) (ho : t.purpose.leaves = some h) :
    h.token? = (Holder.task t).token? := by
  obtain ⟨id, purpose, work⟩ := t
  cases ht with
  | next | stop =>
    obtain rfl := Option.some.inj ho
    rfl
  | collect => exact remains_token ho
  | run | silent | noreplyWait | serverInfo | abandon | close => cases ho

theorem token_of_receive {a : Answer} {j : Cursor} {r : Option Error}
    (h : k.receive a = (j, r)) : j.token = k.token := by
  have hj := receive_token k a
  rw [h] at hj
  exact hj

theorem cursor_token_of_apt {f : Frame} (ht : t.Apt) (hf : t.work = .frame f)
    (hk : t.purpose.cursor? = some k) : k.token = f.token := by
  obtain ⟨id, purpose, work⟩ := t
  cases ht with
  | next | collect | stop =>
    obtain rfl := Option.some.inj hk
    obtain rfl := Work.frame.inj hf
    rfl
  | run | silent | noreplyWait | serverInfo | abandon | close => cases hk

theorem Concluded.token {closed : Bool} {f : Frame} {a : Answer} (ht : t.Apt)
    (hf : t.work = .frame f) (hc : Concluded closed t f a o) (ho : o = some h) :
    h.token? = some f.token := by
  have hk {k : Cursor} (hp : t.purpose.cursor? = some k) : k.token = f.token :=
    cursor_token_of_apt ht hf hp
  cases hc with
  | started hp hr =>
    obtain rfl := Option.some.inj ho
    exact congrArg some (token_of_result hr)
  | ended => cases ho
  | failedNext hp hr =>
    obtain rfl := Option.some.inj ho
    exact congrArg some ((token_of_receive hr).trans (hk (by rw [hp]; rfl)))
  | next hp hr ha =>
    obtain rfl := Option.some.inj ho
    rw [ha.token, token_of_receive hr, hk (by rw [hp]; rfl)]
  | failedCollect hp hr => rw [remains_token ho, token_of_receive hr, hk (by rw [hp]; rfl)]
  | collect hp hr hg => rw [hg.token ho, token_of_receive hr, hk (by rw [hp]; rfl)]

theorem Passes.token (hp : Passes c e h o) (ht : ∀ t, h = .task t → t.Apt) {j : Holder}
    (hj : o = some j) : j.token? = h.token? := by
  cases hp with
  | next ha =>
    obtain rfl := Option.some.inj hj
    exact ha.token
  | collect hg => exact hg.token hj
  | stopped =>
    obtain rfl := Option.some.inj hj
    rfl
  | stop =>
    obtain rfl := Option.some.inj hj
    rfl
  | drop => exact remains_token hj
  | forget => cases hj
  | tell =>
    obtain rfl := Option.some.inj hj
    rfl
  | cancel => exact leaves_token (ht _ rfl) hj
  | refuse => exact leaves_token (ht _ rfl) hj
  | complete => exact leaves_token (ht _ rfl) hj
  | conclude _ hf _ hc =>
    rw [hc.token (ht _ rfl) hf hj]
    simp [Holder.token?, hf, Work.frame?]

theorem Regular.apt_step (h : Regular c) (e : Event) : ∀ u ∈ (c.step e).tasks, u.Apt := by
  intro u hu
  rcases (turn_step h.toExclusive e).origin hu with ⟨t, ht, hm⟩ | hf | ⟨t, -, -, hf⟩
  · exact hm.apt (h.apt t ht)
  · exact hf.apt
  · exact hf.apt

theorem work_of_token {token : UInt64} (h : (Holder.task t).token? = some token) :
    ∃ f, t.work = .frame f ∧ f.token = token := by
  obtain ⟨f, hf, ht⟩ := Option.map_eq_some_iff.mp h
  refine ⟨f, ?_, ht⟩
  cases hw : t.work with
  | shutdown =>
    rw [hw] at hf
    cases hf
  | frame g =>
    rw [hw] at hf
    exact congrArg Work.frame (Option.some.inj hf)

theorem Orderly.token_le (h : Orderly c) {j : Holder} (hj : j ∈ c.holders) {token : UInt64}
    (ht : j.token? = some token) : token.toNat ≤ c.issued := by
  cases j with
  | task t =>
    obtain ⟨f, hw, rfl⟩ := work_of_token ht
    exact (h.tasks t (task_mem_holders.mp hj)).frame f hw
  | cursor k =>
    obtain rfl := Option.some.inj ht
    exact h.cursors k (cursor_mem_holders.mp hj)
  | dropped token =>
    obtain rfl := Option.some.inj ht
    exact h.stopping token (dropped_mem_holders.mp hj)

theorem Begins.token (hb : Begins c e t) : (Holder.task t).token? = none ∨
    (Holder.task t).token? = some c.issue.1 ∧ (c.opens e).length = 1 := by
  cases hb with
  | run hc => exact .inr ⟨rfl, by simp [opens, hc]⟩
  | silent hc => exact .inr ⟨rfl, by simp [opens, hc]⟩
  | noreplyWait => exact .inr ⟨rfl, rfl⟩
  | serverInfo => exact .inr ⟨rfl, rfl⟩
  | close => exact .inl rfl

theorem Regular.tokens_step (h : Regular c) (fresh : (c.step e).issued < UInt64.size) :
    ((c.step e).holders.filterMap Holder.token?).Nodup := by
  cases turn_step h.toExclusive e with
  | stays f begins hf hb hs =>
    have hm := tokens_mapTask fun t ht => (hf t ht).work_eq
    have hn : ((c.holders.map (Holder.mapTask f)).filterMap Holder.token?).Nodup := hm ▸ h.tokens
    cases begins with
    | none => simpa [hs] using hn
    | some t =>
      have hs : (c.step e).holders = .task t ::ₘ c.holders.map (Holder.mapTask f) := hs
      rw [hs]
      rcases (hb t rfl).token with ht | ⟨ht, ho⟩
      · rw [Multiset.filterMap_cons_none _ _ ht]
        exact hn
      · rw [Multiset.filterMap_cons_some _ _ _ ht, hm]
        refine Multiset.nodup_cons.mpr ⟨?_, h.tokens⟩
        -- the token handed out is above all others
        intro hmem
        obtain ⟨j, hj, hjt⟩ := (Multiset.mem_filterMap _ _).mp hmem
        have hle := h.orderly.token_le hj hjt
        rw [issued_step, ho] at fresh
        rw [toNat_issue fresh] at hle
        omega
  | passes hp hc hs =>
    rename_i j o rest
    have hn := h.tokens
    rw [hc] at hn
    have ha : ∀ t, j = .task t → t.Apt := by
      rintro t rfl
      exact h.apt t (task_mem_holders.mp (hc ▸ Multiset.mem_cons_self _ _))
    have hrest : (rest.filterMap Holder.token?).Nodup :=
      Multiset.nodup_of_le (Multiset.filterMap_le_filterMap _ (Multiset.le_cons_self _ _)) hn
    cases o with
    | none => simpa [hs] using hrest
    | some i =>
      have hs : (c.step e).holders = i ::ₘ rest := hs
      have hi := hp.token ha rfl
      rw [hs]
      cases hj : j.token? with
      | none =>
        rw [Multiset.filterMap_cons_none _ _ (hi.trans hj)]
        exact hrest
      | some token =>
        rw [Multiset.filterMap_cons_some _ _ _ (hi.trans hj)]
        rw [Multiset.filterMap_cons_some _ _ _ hj] at hn
        exact hn

structure Carries (c : Client) (e : Event) (token : UInt64) (P Q : Holder → Prop) : Prop where
  cursor : ∀ k, .cursor k ∈ c.holders → k.token = token → P (.cursor k) → Q (.cursor k)
  dropped : .dropped token ∈ c.holders → P (.dropped token) → Q (.dropped token)
  marked : ∀ t u, t ∈ c.tasks → (Holder.task t).token? = some token → Marked c e t u →
    P (.task t) → Q (.task u)
  begins : ∀ t, Begins c e t → (Holder.task t).token? = some token → c.issued < token.toNat →
    Q (.task t)
  passes : ∀ i o j, i ∈ c.holders → i.token? = some token → (∀ t, i = .task t → t.Apt) →
    Passes c e i o → o = some j → P i → Q j

theorem Regular.carry (h : Regular c) (fresh : (c.step e).issued < UInt64.size) {token : UInt64}
    {P Q : Holder → Prop} (hc : Carries c e token P Q)
    (hp : ∀ j ∈ c.holders, j.token? = some token → P j) :
    ∀ j ∈ (c.step e).holders, j.token? = some token → Q j := by
  intro j hj htoken
  cases turn_step h.toExclusive e with
  | stays f begins hf hb hs =>
    rw [hs] at hj
    rcases Multiset.mem_add.mp hj with hj | hj
    · obtain ⟨t, ht, rfl⟩ : ∃ t, t ∈ begins ∧ .task t = j := by simpa using hj
      apply hc.begins t (hb t ht) htoken
      rcases (hb t ht).token with hn | ⟨hn, ho⟩
      · rw [hn] at htoken
        cases htoken
      · obtain rfl := Option.some.inj (hn.symm.trans htoken)
        rw [issued_step, ho] at fresh
        rw [toNat_issue fresh]
        exact Nat.lt_succ_self _
    · obtain ⟨i, hi, rfl⟩ := Multiset.mem_map.mp hj
      cases i with
      | task t =>
        have ht := task_mem_holders.mp hi
        have hm := hf t ht
        have htoken : (Holder.task t).token? = some token := by
          simpa [Holder.token?, hm.work_eq] using htoken
        exact hc.marked t _ ht htoken hm (hp _ hi htoken)
      | cursor k => exact hc.cursor k hi (Option.some.inj htoken) (hp _ hi htoken)
      | dropped d =>
        obtain rfl := Option.some.inj htoken
        exact hc.dropped hi (hp _ hi rfl)
  | passes hpass hh hs =>
    rename_i i o rest
    have hi : i ∈ c.holders := hh ▸ Multiset.mem_cons_self _ _
    have ha : ∀ t, i = .task t → t.Apt := by
      rintro t rfl
      exact h.apt t (task_mem_holders.mp hi)
    rw [hs] at hj
    rcases Multiset.mem_add.mp hj with hj | hj
    · have ho : o = some j := by simpa using hj
      have hit := (hpass.token ha ho).symm.trans htoken
      exact hc.passes i o j hi hit ha hpass ho (hp i hi hit)
    · have hj : j ∈ c.holders := hh ▸ Multiset.mem_cons_of_mem hj
      cases j with
      | task t =>
        exact hc.marked t t (task_mem_holders.mp hj) htoken (.other hpass.enqueues t)
          (hp _ hj htoken)
      | cursor k => exact hc.cursor k hj (Option.some.inj htoken) (hp _ hj htoken)
      | dropped d =>
        obtain rfl := Option.some.inj htoken
        exact hc.dropped hj (hp _ hj rfl)

theorem Regular.step (h : Regular c) (fresh : (c.step e).issued < UInt64.size) :
    Regular (c.step e) :=
  { h.toLined.step e with
    tokens := h.tokens_step fresh
    apt := h.apt_step e }

theorem issued_le_after (c : Client) (events : List Event) :
    c.issued ≤ (c.after events).issued := by
  induction events generalizing c with
  | nil => exact Nat.le_refl _
  | cons e r ih =>
    have hs := issued_step c e
    have hr : (c.step e).issued ≤ (c.after (e :: r)).issued := ih _
    omega

theorem Regular.after (h : Regular c) {events : List Event}
    (fresh : (c.after events).issued < UInt64.size) : Regular (c.after events) := by
  induction events generalizing c with
  | nil => exact h
  | cons e r ih =>
    have hr := issued_le_after (c.step e) r
    exact ih (h.step (Nat.lt_of_le_of_lt hr fresh)) fresh

theorem Reachable.regular (h : Reachable c) (fresh : c.issued < UInt64.size) : Regular c := by
  obtain ⟨db, events, rfl⟩ := h
  exact (regular_start db).after fresh

end Client

end ReqlDriver
