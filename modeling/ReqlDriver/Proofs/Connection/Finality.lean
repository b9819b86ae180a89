import ReqlDriver.Proofs.Connection.Exhaustion
import ReqlDriver.Proofs.Connection.Language

namespace ReqlDriver

structure Task.Owes (t : Task) (token : UInt64) : Prop where
  work : t.work = .frame (Frame.control token .stop)
  phase : t.phase = .unsent

def Holder.Accounts (due dropped : Prop) : Holder → Prop
  | .task t => (∀ k rows, t.purpose ≠ .collect k rows) ∧ (t.purpose.stops = true → due)
  | .cursor _ => True
  | .dropped _ => dropped

namespace Client

def Stops (token : UInt64) (c : Client) (e : Event) : Prop :=
  e = .call (.stop token) ∧ c.closed = false ∧ ∃ k, c.cursor? token = some k ∧ k.exhausted = false

def Drops (token : UInt64) (c : Client) (e : Event) : Prop :=
  e = .dropCursor token ∧ ∃ k, c.cursor? token = some k ∧ k.exhausted = false

def Tells (token : UInt64) (c : Client) (e : Event) : Prop :=
  e = .stopDropped token ∧ token ∈ c.stopping ∧ c.closed = false

def Due (token : UInt64) (c : Client) (events : List Event) : Prop :=
  Once (Stops token) c events ∨ Once (Drops token) c events ∧ Once (Tells token) c events

/-- The server will not be told to stop: the call is given up before that is sent, or the sending
side has ended. -/
inductive Loses (token : UInt64) (c : Client) : Event → Prop
  | givenUp {t : Task} {k : Cursor} : t ∈ c.tasks → t.Owes token → t.purpose = .stop k →
      Loses token c (.cancel t.id)
  | barred {t : Task} : t ∈ c.tasks → t.Owes token → c.shut = true →
      Loses token c (.enqueue t.id)

variable {c : Client} {e : Event} {k : Cursor} {t : Task} {j : Holder} {o : Option Holder}
  {token : UInt64} {due dropped due' dropped' : Prop}

theorem Exclusive.cursor?_eq (h : Exclusive c) (hk : k ∈ c.cursors) :
    c.cursor? k.token = some k := by
  cases hj : c.cursor? k.token with
  | none =>
    have hn := List.find?_eq_none.mp hj k hk
    simp at hn
  | some j => rw [eq_of_nodup_map h.cursors (mem_of_cursor? hj) hk (token_of_cursor? hj)]

theorem Advanced.accounts {closed : Bool} {id : Nat} (h : Advanced closed id k j) :
    j.Accounts due dropped := by
  cases h with
  | row | ended | refused => trivial
  | asked => exact ⟨nofun, nofun⟩

theorem leaves_accounts (ht : (Holder.task t).Accounts due dropped)
    (ho : t.purpose.leaves = some j) : j.Accounts due' dropped' := by
  cases hp : t.purpose with
  | next | stop =>
    rw [hp] at ho
    obtain rfl := Option.some.inj ho
    trivial
  | collect k rows => exact absurd hp (ht.1 k rows)
  | run | silent | noreplyWait | serverInfo | abandon | close =>
    rw [hp] at ho
    cases ho

theorem Exclusive.accounts_carry (h : Exclusive c) (hn : e ≠ .call (.collect token))
    (hdue : due ∨ Stops token c e ∨ dropped ∧ Tells token c e → due')
    (hdropped : dropped ∨ Drops token c e → dropped') :
    Carries c e token (Holder.Accounts due dropped) (Holder.Accounts due' dropped') where
  cursor := fun _ _ _ _ => trivial
  dropped := fun _ hd => hdropped (.inl hd)
  marked := by
    rintro t u _ _ hm ⟨hc, hs⟩
    have hp := hm.purpose_eq
    exact ⟨fun k rows hu => hc k rows (hp ▸ hu), fun hu => hdue (.inl (hs (hp ▸ hu)))⟩
  begins := by
    intro t hb _ _
    cases hb <;> exact ⟨nofun, nofun⟩
  passes := by
    intro i o j hi hit _ hp ho ha
    cases hp with
    | next hj =>
      obtain rfl := Option.some.inj ho
      exact hj.accounts
    | collect =>
      obtain rfl := Option.some.inj hit
      exact absurd rfl hn
    | stopped =>
      obtain rfl := Option.some.inj ho
      trivial
    | stop he hc =>
      obtain rfl := Option.some.inj ho
      obtain rfl := Option.some.inj hit
      have hk := h.cursor?_eq (cursor_mem_holders.mp hi)
      exact ⟨nofun, fun _ => hdue (.inr (.inl ⟨rfl, hc, _, hk, he⟩))⟩
    | drop =>
      obtain rfl := Option.some.inj hit
      have hk := h.cursor?_eq (cursor_mem_holders.mp hi)
      unfold Cursor.remains at ho
      split at ho
      · cases ho
      · rename_i he
        obtain rfl := Option.some.inj ho
        exact hdropped (.inr ⟨rfl, _, hk, by simpa using he⟩)
    | forget => cases ho
    | tell hc =>
      obtain rfl := Option.some.inj ho
      obtain rfl := Option.some.inj hit
      exact ⟨nofun, fun _ => hdue (.inr (.inr ⟨ha, rfl, dropped_mem_holders.mp hi, hc⟩))⟩
    | cancel | refuse | complete => exact leaves_accounts ha ho
    | conclude _ _ _ hc =>
      cases hc with
      | started | failedNext =>
        obtain rfl := Option.some.inj ho
        trivial
      | ended => cases ho
      | next _ _ hj =>
        obtain rfl := Option.some.inj ho
        exact hj.accounts
      | failedCollect hp | collect hp => exact absurd hp (ha.1 _ _)

theorem stops_of_work (ht : t.Apt) (hf : t.work = .frame (Frame.control token .stop)) :
    t.purpose.stops = true := by
  obtain ⟨id, purpose, work⟩ := t
  have htype {f : Frame} (h : work = .frame f) : f.queryType? = some .stop := by
    obtain rfl := Work.frame.inj (h.symm.trans hf)
    exact queryType_control
  cases ht with
  | stop | abandon => rfl
  | close => cases hf
  | run | silent => exact absurd (htype rfl) (by simp [queryType_start])
  | noreplyWait | serverInfo | next | collect =>
    exact absurd (htype rfl) (by simp [queryType_control])

theorem due_concat {events : List Event} : Due token c events ∨ Stops token (c.after events) e ∨
      Once (Drops token) c events ∧ Tells token (c.after events) e →
    Due token c (events ++ [e]) := by
  unfold Due
  simp only [once_concat]
  rintro ((h | ⟨hd, ht⟩) | h | ⟨hd, ht⟩)
  · exact .inl (.inl h)
  · exact .inr ⟨.inl hd, .inl ht⟩
  · exact .inl (.inr h)
  · exact .inr ⟨.inl hd, .inr ht⟩

structure Accounted (c : Client) (events : List Event) (token : UInt64) : Prop where
  holders : ∀ j ∈ (c.after events).holders, j.token? = some token →
    j.Accounts (Due token c events) (Once (Drops token) c events)
  stop : Frame.control token .stop ∈ c.queued events → Due token c events

theorem Accounted.concat {events : List Event} (h : Accounted c events token)
    (hr : Regular (c.after events)) (fresh : (c.after (events ++ [e])).issued < UInt64.size)
    (hn : e ≠ .call (.collect token)) : Accounted c (events ++ [e]) token where
  holders := by
    rw [after_concat] at fresh ⊢
    refine hr.carry fresh (hr.accounts_carry hn due_concat ?_) h.holders
    rw [once_concat]
    exact id
  stop := by
    rw [queued_concat]
    intro hm
    apply due_concat ∘ Or.inl
    rcases List.mem_append.mp hm with hm | hm
    · exact h.stop hm
    · have hon : Frame.control token .stop ∈ on token ((c.after events).queues e) :=
        List.mem_filter.mpr ⟨hm, beq_self_eq_true _⟩
      rcases queues_on (c.after events) e token with hq | ⟨t, f, ht, hf, hft, -, -, hq⟩
      · rw [hq] at hon
        cases hon
      · rw [hq] at hm
        obtain rfl := List.mem_singleton.mp hm
        have hs := stops_of_work (hr.apt t (task_mem_holders.mp ht)) hf
        exact (h.holders _ ht (by simp [Holder.token?, hf, Work.frame?, hft])).2 hs

theorem accounted_after (db : Option String) {events : List Event}
    (fresh : (after { db } events).issued < UInt64.size)
    (hn : Event.call (.collect token) ∉ events) : Accounted { db } events token := by
  induction events, fresh using induct_fresh with
  | nil =>
    constructor
    · intro j hj
      simp [after, Client.holders] at hj
    · intro hm
      cases hm
  | concat events e _ fresh hr ih =>
    have hb : Event.call (.collect token) ∉ events := fun hm => hn (List.mem_append_left _ hm)
    refine (ih hb).concat hr fresh ?_
    rintro rfl
    exact hn (List.mem_append_right _ (List.mem_singleton_self _))

theorem Regular.unsent_step (h : Regular c) (ht : t ∈ c.tasks) (hp : t.phase = .unsent)
    (hn : e = .cancel t.id → t.purpose = .abandon) : ∃ u ∈ (c.step e).tasks, Marked c e t u := by
  have hm := task_mem_holders.mpr ht
  cases turn_step h.toExclusive e with
  | stays g begins hg _ hs =>
    refine ⟨g t, task_mem_holders.mp ?_, hg t ht⟩
    rw [hs]
    exact Multiset.mem_add.mpr (.inr (Multiset.mem_map.mpr ⟨_, hm, rfl⟩))
  | passes hpass hh hs =>
    refine ⟨t, task_mem_holders.mp ?_, .other hpass.enqueues t⟩
    rw [hs]
    rw [hh] at hm
    rcases Multiset.mem_cons.mp hm with rfl | hm
    · cases hpass with
      | cancel ha => exact absurd (hn rfl) ha
      | refuse hp' | complete hp' | conclude hp' =>
        rw [hp] at hp'
        cases hp'
    · exact Multiset.mem_add.mpr (.inr hm)

theorem Regular.owes_step (h : Regular c) (ht : t ∈ c.tasks) (ho : t.Owes token)
    (hn : ¬ Loses token c e) :
    (∃ u ∈ (c.step e).tasks, u.Owes token) ∨ Frame.control token .stop ∈ c.queues e := by
  -- what is done for a dropped cursor is nobody's call, and is not given up
  have hcancel : e = .cancel t.id → t.purpose = .abandon := by
    rintro rfl
    have hs := stops_of_work (h.apt t ht) ho.work
    cases hp : t.purpose with
    | abandon => rfl
    | stop k => exact absurd (.givenUp ht ho hp) hn
    | _ =>
      rw [hp] at hs
      cases hs
  obtain ⟨u, hu, hm⟩ := h.unsent_step ht ho.phase hcancel
  have hw : u.work = _ := hm.work_eq.trans ho.work
  by_cases he : e.writes = true
  · rcases h.writes_marked ht hm he with rfl | hq
    · exact .inl ⟨_, hu, ho⟩
    · rw [ho.phase] at hq
      cases hq
  · cases hm with
    | same | answered | ended => exact .inl ⟨_, hu, hw, ho.phase⟩
    | queued ha =>
      rw [queues_admitted (h.orderly.task?_eq ht) ha, ho.work]
      exact .inr (List.mem_singleton_self _)
    | barred _ hs => exact absurd (.barred ht ho hs) hn
    | written | missed | failed => exact absurd rfl he

theorem owes_of_stops (h : Stops token c e) : ∃ t ∈ (c.step e).tasks, t.Owes token := by
  obtain ⟨rfl, hc, k, hk, he⟩ := h
  let d : Client := { c with begun := c.begun + 1 }
  have hs : c.step (.call (.stop token)) = _ := call_stop hk
  rw [hs, beginStop_tell (c := d.take token) hc _ he, token_of_cursor? hk]
  exact ⟨_, List.mem_append_right _ (List.mem_singleton_self _), rfl, rfl⟩

theorem owes_of_tells (h : Tells token c e) : ∃ t ∈ (c.step e).tasks, t.Owes token := by
  obtain ⟨rfl, ht, hc⟩ := h
  rw [step, stopDropped_tell hc ht]
  exact ⟨_, List.mem_append_right _ (List.mem_singleton_self _), rfl, rfl⟩

theorem stop_of_due (db : Option String) {events : List Event}
    (fresh : (after { db } events).issued < UInt64.size)
    (kept : ¬ Once (Loses token) { db } events)
    (due : Once (Stops token) { db } events ∨ Once (Tells token) { db } events) :
    Frame.control token .stop ∈ queued { db } events ∨
      ∃ t ∈ (after { db } events).tasks, t.Owes token := by
  induction events, fresh using induct_fresh with
  | nil => cases due <;> contradiction
  | concat events e _ _ hr ih =>
    simp only [once_concat, not_or] at kept due
    rw [queued_concat, after_concat]
    have hold (due : Once (Stops token) { db } events ∨ Once (Tells token) { db } events) :
        Frame.control token .stop ∈ queued { db } events ++ (after { db } events).queues e ∨
          ∃ t ∈ ((after { db } events).step e).tasks, t.Owes token := by
      rcases ih kept.1 due with hq | ⟨t, ht, ho⟩
      · exact .inl (List.mem_append_left _ hq)
      · rcases hr.owes_step ht ho kept.2 with hu | hq
        · exact .inr hu
        · exact .inl (List.mem_append_right _ hq)
    rcases due with (due | due) | due | due
    · exact hold (.inl due)
    · exact .inr (owes_of_stops due)
    · exact hold (.inr due)
    · exact .inr (owes_of_tells due)

theorem dropped_step (h : Exclusive c) (ht : token ∈ c.stopping) :
    token ∈ (c.step e).stopping ∨ Tells token c e ∨ c.closed = true := by
  have hm := dropped_mem_holders.mpr ht
  cases turn_step h e with
  | stays g begins _ _ hs =>
    refine .inl (dropped_mem_holders.mp ?_)
    rw [hs]
    exact Multiset.mem_add.mpr (.inr (Multiset.mem_map.mpr ⟨_, hm, rfl⟩))
  | passes hp hh hs =>
    rw [hh] at hm
    rcases Multiset.mem_cons.mp hm with rfl | hm
    · cases hp with
      | forget hc => exact .inr (.inr hc)
      | tell hc => exact .inr (.inl ⟨rfl, ht, hc⟩)
    · refine .inl (dropped_mem_holders.mp ?_)
      rw [hs]
      exact Multiset.mem_add.mpr (.inr hm)

theorem stopping_of_drops (h : Drops token c e) : token ∈ (c.step e).stopping := by
  obtain ⟨rfl, k, hk, he⟩ := h
  simp [step, Client.dropCursor, hk, Client.abandon, he, token_of_cursor? hk]

theorem tells_of_drops (db : Option String) {events : List Event}
    (fresh : (after { db } events).issued < UInt64.size)
    (dropped : Once (Drops token) { db } events) :
    token ∈ (after { db } events).stopping ∨ Once (Tells token) { db } events ∨
      (after { db } events).closed = true := by
  induction events, fresh using induct_fresh with
  | nil => cases dropped
  | concat events e _ _ hr ih =>
    rw [after_concat, closed_step, Bool.or_eq_true, once_concat]
    rcases (once_concat _ _ _).mp dropped with hd | hd
    · rcases ih hd with hs | ht | hc
      · rcases dropped_step hr.toExclusive hs with hs | ht | hc
        · exact .inl hs
        · exact .inr (.inl (.inr ht))
        · exact .inr (.inr (.inl hc))
      · exact .inr (.inl (.inl ht))
      · exact .inr (.inr (.inl hc))
    · exact .inl (stopping_of_drops hd)

theorem stop_not_mem_of_asking {frames : List Frame} (h : Asking token frames) :
    Frame.control token .stop ∉ frames := by
  obtain ⟨q, o, db, n, -, rfl⟩ := h
  intro hm
  rcases List.mem_cons.mp hm with hm | hm
  · have ht := congrArg Frame.queryType? hm
    simp [queryType_control, queryType_start] at ht
  · have ht := congrArg Frame.queryType? (List.eq_of_mem_replicate hm)
    simp [queryType_control] at ht

theorem rest_eq_nil_of_word {said rest : List Frame}
    (h : Word token (said ++ Frame.control token .stop :: rest)) : rest = [] := by
  have hm : Frame.control token .stop ∈ said ++ Frame.control token .stop :: rest := by simp
  generalize hw : said ++ Frame.control token .stop :: rest = frames at h hm
  cases h with
  | stopped ha =>
    rcases List.eq_nil_or_concat rest with hr | ⟨r, g, rfl⟩
    · exact hr
    · -- the last frame would be another, and the word to stop among those before it
      rw [List.concat_eq_append, ← List.cons_append, ← List.append_assoc] at hw
      obtain ⟨hw, -⟩ := List.append_inj' hw rfl
      exact absurd (hw ▸ by simp) (stop_not_mem_of_asking ha)
  | asking ha => exact absurd hm (stop_not_mem_of_asking ha)
  | unused => cases hm
  | silent | noreplyWait | serverInfo =>
    have ht := congrArg Frame.queryType? (List.mem_singleton.mp hm)
    simp [queryType_control, queryType_start] at ht

theorem noMore_after {db : Option String} {before later : List Event}
    (fresh : (after { db } (before ++ e :: later)).issued < UInt64.size)
    (h : Regular (after { db } before) → ((after { db } before).step e).issued < UInt64.size →
      Settled Holder.Spent token ((after { db } before).step e)) :
    NoMore token (after { db } (before ++ e :: later)) := by
  have hr := regular_before fresh
  rw [after_append] at fresh ⊢
  have hle := Nat.lt_of_le_of_lt (issued_le_after (step _ e) later) fresh
  exact ((h hr hle).after spent_lasts (hr.step hle) fresh).noMore

theorem Spoken.of_owes {events : List Event} (h : Spoken c events)
    (ht : t ∈ (c.after events).tasks) (ho : t.Owes token) :
    Asking token (on token (c.queued events)) := by
  have htoken : (Holder.task t).token? = some token := by
    simp only [Holder.token?, ho.work]
    rfl
  obtain ⟨base, hfit⟩ := h.fits _ (task_mem_holders.mpr ht) token htoken
  have hs := hfit.spoken
  have hf := hfit.follows
  have hp := stops_of_work (h.regular.apt t ht) ho.work
  simp only [Task.Spoken, ho.phase] at hs
  have hs : on token (c.queued events) = base := hs
  rw [hs]
  cases hu : t.purpose with
  | stop | abandon =>
    rw [hu] at hf
    exact hf.1
  | _ =>
    rw [hu] at hp
    cases hp

theorem Regular.settled_loses (h : Regular c) (fresh : (c.step e).issued < UInt64.size)
    (hl : Loses token c e) : Settled Holder.Silent token (c.step e) := by
  have hr := (h.step fresh).toExclusive
  cases hl with
  | givenUp ht ho hk =>
    rename_i t k
    have hs : c.step (.cancel t.id) = (c.dismiss t).hold k := by
      simp only [Client.step, Client.cancel, h.orderly.task?_eq ht, hk]
    have hkt := cursor_token_of_apt (h.apt t ht) ho.work (by rw [hk]; rfl)
    refine hr.settled (j := .cursor k) ?_ (congrArg some hkt) (stop_spent (h.apt t ht) hk).1
    rw [hs, holders_hold]
    exact Multiset.mem_cons_self _ _
  | barred ht ho hc =>
    rename_i t
    have hs := enqueue_barred (h.orderly.task?_eq ht) ho.phase hc
    have hu : { t with phase := .refused } ∈ (c.step (.enqueue t.id)).tasks := by
      rw [Client.step, hs]
      exact List.mem_map.mpr ⟨t, ht, by simp⟩
    refine hr.settled (task_mem_holders.mpr hu) ?_ ⟨rfl, stops_of_work (h.apt t ht) ho.work⟩
    simp only [Holder.token?, ho.work]
    rfl

theorem Loses.not_fills (h : Loses token c e) : ¬ c.Fills e := by
  rintro ⟨u, he, -, ha⟩
  cases h with
  | givenUp => cases he
  | barred _ _ hc =>
    rw [ha.shut] at hc
    cases hc

theorem stop_not_mem_of_loses {db : Option String} {events : List Event}
    (fresh : (after { db } events).issued < UInt64.size)
    (lost : Once (Loses token) { db } events) :
    Frame.control token .stop ∉ queued { db } events := by
  obtain ⟨before, e, later, rfl, hl⟩ := once_iff.mp lost
  have hs := spoken_after db (Nat.lt_of_le_of_lt (issued_le_append _ before _) fresh)
  have hr := hs.regular
  rw [after_append] at fresh
  have hle := Nat.lt_of_le_of_lt (issued_le_after (step _ e) later) fresh
  have hlater : on token (queued (step _ e) later) = [] :=
    (hr.settled_loses hle hl).queued_eq_nil (hr.step hle) fresh
  intro hm
  have hm : Frame.control token .stop ∈ on token (queued { db } (before ++ e :: later)) :=
    List.mem_filter.mpr ⟨hm, beq_self_eq_true _⟩
  rw [queued_append, on_append, queued, on_append, hlater, queues_eq_nil hl.not_fills] at hm
  -- what is left is what had been said before the loss
  have ha : Asking token (on token (queued { db } before)) := by
    cases hl with
    | givenUp ht ho => exact hs.of_owes ht ho
    | barred ht ho => exact hs.of_owes ht ho
  exact stop_not_mem_of_asking ha (by simpa [on] using hm)

/-- How the cursor of a token comes to its end. An exhausted cursor stays exhausted, and nothing
more is said on its token. After its rows have ended, or it has been stopped, a call for the next
row gives none. To stop it when it is exhausted takes nothing. When the server is told to stop, that
is the last that it is told; and unless that gets lost on the way, it is told just when the cursor
is stopped or dropped before it is exhausted, on a connection that is open. -/
structure Finality (c : Client) (events : List Event) (token : UInt64) : Prop where
  exhausted : ∀ before later k, before ++ later = events →
    (c.after before).cursor? token = some k → k.exhausted = true →
    on token (c.queued events) = on token (c.queued before) ∧
      ∀ j, (c.after events).cursor? token = some j → j.exhausted = true
  ended : ∀ before e later, before ++ e :: later = events → Ends token (c.after before) e →
    NoMore token (c.after events)
  stopped : ∀ before later k, before ++ .call (.stop token) :: later = events →
    (c.after before).cursor? token = some k → NoMore token (c.after events)
  again : ∀ k, (c.after events).cursor? token = some k → k.exhausted = true →
    (c.after events).Returns (.stop token) (.ok .done)
  last : ∀ said rest, on token (c.queued events) = said ++ Frame.control token .stop :: rest →
    rest = []
  told : Event.call (.collect token) ∉ events → (∀ t ∈ (c.after events).tasks, ¬ t.Owes token) →
    (Frame.control token .stop ∈ c.queued events ↔
      Due token c events ∧ ¬ Once (Loses token) c events)
  dropped : Once (Drops token) c events → token ∉ (c.after events).stopping →
    (c.after events).closed = false → Once (Tells token) c events

theorem exhaustion_final (db : Option String) (events : List Event) (token : UInt64)
    (fresh : (after { db } events).issued < UInt64.size) : Finality { db } events token where
  exhausted := by
    rintro before later k rfl hk he
    have hr := regular_before fresh
    rw [after_append] at fresh ⊢
    have hs : Settled Holder.Silent token _ := hr.settled_cursor hk he
    constructor
    · rw [queued_append, on_append, hs.queued_eq_nil hr fresh, List.append_nil]
    · exact fun j hj => (hs.after silent_lasts hr fresh).of_cursor? hj
  ended := by
    rintro before e later rfl he
    exact noMore_after fresh fun hr hle => hr.settled_ends hle he
  stopped := by
    rintro before later k rfl hk
    exact noMore_after fresh fun hr hle => hr.settled_stop hk hle
  again := fun _ hk he => returns_stop hk he
  last := fun _ _ hs => rest_eq_nil_of_word (hs ▸ (spoken_after db fresh).words token)
  told := by
    intro hn hall
    constructor
    · intro hm
      exact ⟨(accounted_after db fresh hn).stop hm, fun hl => stop_not_mem_of_loses fresh hl hm⟩
    · rintro ⟨hd, hl⟩
      rcases stop_of_due db fresh hl (hd.imp_right And.right) with hq | ⟨t, ht, ho⟩
      · exact hq
      · exact absurd ho (hall t ht)
  dropped := by
    intro hd hs hc
    rcases tells_of_drops db fresh hd with ht | ht | ht
    · exact absurd ht hs
    · exact ht
    · rw [hc] at ht
      cases ht

theorem exhaustion_final_of_stopped_cursor :
    let batch : Frame := ⟨1, .array [.int 3, .array [.bool true]]⟩
    let events : List Event := [.call (.run (.datum .null) {}), .enqueue 0, .write, .receive batch,
      .resume 0, .call (.next 1), .call (.next 1), .enqueue 2, .write, .receive batch, .resume 2,
      .call (.stop 1), .enqueue 3, .write, .resume 3, .call (.next 1), .dropCursor 1]
    (after {} events).issued < UInt64.size ∧
      (queued {} events).map (fun f => (f.token, f.queryType?)) =
        [(1, some .start), (1, some .fetch), (1, some .stop)] ∧
      Finality {} events 1 := by
  intro batch events
  have fresh : (after {} events).issued < UInt64.size :=
    Nat.lt_of_le_of_lt (issued_after_le _ _) (by decide)
  exact ⟨fresh, by decide +kernel, exhaustion_final none events 1 fresh⟩

end Client

end ReqlDriver
