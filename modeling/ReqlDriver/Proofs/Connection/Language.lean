import ReqlDriver.Proofs.Connection.Words

namespace ReqlDriver

open Client

variable {c : Client} {e : Event} {t u : Task} {h j : Holder} {k : Cursor} {token : UInt64}
  {base : List Frame} {f : Frame} {s : Known}

def Known.next (s : Known) (c : Client) (e : Event) (token : UInt64) : Known where
  opened := s.opened ++ c.opens e
  shut := (c.step e).shut
  said := s.said ++ on token (c.queues e)
  batched := s.batched ∨ Batches token c e

theorem Purpose.Follows.mono {p : Purpose} {b b' : Prop} (hb : b → b')
    (h : p.Follows token b base) : p.Follows token b' base := by
  cases p with
  | run | silent | noreplyWait | serverInfo | close => exact h
  | next | collect | stop | abandon => exact ⟨h.1, hb h.2⟩

theorem Task.Spoken.mono {said : List Frame} {b b' : Bool} (hb : b = true → b' = true)
    (h : t.Spoken b base said) : t.Spoken b' base said := by
  unfold Task.Spoken at h ⊢
  split at h
  · exact h
  · exact h
  · exact h
  · exact h.imp_left fun ⟨he, hs⟩ => ⟨he, hb hs⟩

theorem Task.Spoken.of_phase {said : List Frame} {b : Bool} (h : t.Spoken b base said)
    (hp : u.phase = t.phase) (hw : u.work = t.work) : u.Spoken b base said := by
  unfold Task.Spoken
  rw [hp, hw]
  exact h

theorem Client.Regular.queues_on_eq_nil (hr : Regular c) (hh : h ∈ c.holders)
    (htoken : h.token? = some token) (hn : ∀ t, h = .task t → e = .enqueue t.id → ¬ c.Admits t) :
    on token (c.queues e) = [] := by
  rcases queues_on c e token with hq | ⟨u, f, hu, hf, hft, he, ha, -⟩
  · exact hq
  · have hut : (Holder.task u).token? = some token := by simp [Holder.token?, hf, Work.frame?, hft]
    exact absurd ha (hn u (hr.toExclusive.eq hh hu htoken hut) he)

theorem Task.Fits.spoken_marked (h : t.Fits token s base) (hr : Regular c) (ht : t ∈ c.tasks)
    (htoken : (Holder.task t).token? = some token) (hshut : s.shut = c.shut)
    (hm : Marked c e t u) :
    u.Spoken (s.next c e token).shut base (s.next c e token).said := by
  obtain ⟨f, hf, hft⟩ := work_of_token htoken
  have hs := h.spoken
  by_cases hn : e = .enqueue t.id ∧ c.Admits t
  · obtain ⟨rfl, ha⟩ := hn
    have hq : on token (c.queues (.enqueue t.id)) = [f] := by
      rw [queues_admitted (hr.orderly.task?_eq ht) ha, hf]
      simp [Work.frame?, on, hft]
    have hp := hm.phase_admitted rfl ha
    simp only [Task.Spoken, ha.phase] at hs
    simp only [Task.Spoken, hp, Known.next, hq, hm.work_eq, hf, hs]
    rfl
  · have hnil : on token (c.queues e) = [] := by
      apply hr.queues_on_eq_nil (task_mem_holders.mpr ht) htoken
      intro v hv he ha
      obtain rfl := Holder.task.inj hv
      exact hn ⟨he, ha⟩
    have hsh : s.shut = true → (c.step e).shut = true := fun hb => shut_step (hshut ▸ hb) e
    simp only [Known.next, hnil, List.append_nil]
    -- a task that the writer turns to has queued its frame
    have hwritten {w : Work × Nat} (hw : w ∈ c.queue) (hi : t.id = w.2) :
        s.said = base ++ t.work.frame?.toList := by
      simp only [Task.Spoken, hr.queued w hw t ht hi] at hs
      exact hs
    cases hm with
    | same => exact hs.mono hsh
    | queued ha => exact absurd ⟨rfl, ha⟩ hn
    | barred hp hc =>
      simp only [Task.Spoken, hp] at hs
      exact .inl ⟨hs, shut_step hc _⟩
    | written hq => exact hwritten (hq ▸ List.mem_cons_self) rfl
    | missed hq hi =>
      obtain ⟨w, hw, hi⟩ := List.mem_map.mp hi
      exact .inr (hwritten (hq ▸ List.mem_cons_of_mem _ hw) hi.symm)
    | failed _ hq => exact .inr (hwritten (hq ▸ List.mem_cons_self) rfl)
    | answered => exact (hs.mono hsh).of_phase rfl rfl
    | ended => exact (hs.mono hsh).of_phase rfl rfl

theorem brings_of_result {a : Answer} (h : a.result token = .ok (.cursor k)) :
    ∃ r, a = .ok r ∧ r.type = .successPartial := by
  unfold Answer.result Answer.checked at h
  cases a with
  | error e => cases h
  | ok r =>
    refine ⟨r, rfl, ?_⟩
    simp only [Except.bind, bind] at h
    split at h
    · cases h
    · rename_i hc
      split at hc
      · cases hc
      · obtain rfl := Except.ok.inj hc
        split at h <;> first | cases h; done | assumption

theorem Client.Marked.batches (hr : Regular c) (ht : t ∈ c.tasks)
    (htoken : (Holder.task t).token? = some token) (hm : Marked c e t u) (hp : t.purpose = .run)
    {a : Answer} (ha : u.answer = some a) (hk : a.result token = .ok (.cursor k)) :
    t.answer = some a ∨ Batches token c e := by
  cases hm with
  | same | queued | barred | written | missed | failed => exact .inl ha
  | ended =>
    obtain rfl := Option.some.inj ha
    cases hk
  | answered g hg =>
    obtain rfl := Option.some.inj ha
    obtain ⟨f, hf, hft⟩ := work_of_token htoken
    obtain ⟨v, hv, hi, -, f', hf', hft'⟩ := hr.orderly.waiting _ (mem_of_lookup_eq_some hg)
    obtain rfl := eq_of_nodup_map hr.orderly.ids hv ht hi
    obtain rfl := Work.frame.inj (hf.symm.trans hf')
    have hgt : g.token = token := hft'.symm.trans hft
    exact .inr ⟨g, v, rfl, ⟨hgt, brings_of_result hk⟩, hgt ▸ hg, hv, hp⟩

theorem Task.Fits.marked (h : t.Fits token s base) (hr : Regular c) (ht : t ∈ c.tasks)
    (htoken : (Holder.task t).token? = some token) (hshut : s.shut = c.shut)
    (hm : Marked c e t u) : u.Fits token (s.next c e token) base where
  follows := by
    rw [hm.purpose_eq]
    exact h.follows.mono .inl
  spoken := h.spoken_marked hr ht htoken hshut hm
  first := by
    intro hb f hf
    rw [hm.work_eq] at hf
    exact List.mem_append_left _ (h.first hb f hf)
  answered := by
    intro hp a k ha hk
    rw [hm.purpose_eq] at hp
    rcases hm.batches hr ht htoken hp ha hk with ha | hb
    · exact .inl (h.answered hp a k ha hk)
    · exact .inr hb

theorem Holder.Fits.next (hh : h.Fits token s) (hq : on token (c.queues e) = [])
    (hshut : s.shut = c.shut) : h.Fits token (s.next c e token) := by
  have hsh : s.shut = true → (c.step e).shut = true := fun hb => shut_step (hshut ▸ hb) e
  have hsaid : (s.next c e token).said = s.said := by simp [Known.next, hq]
  cases h with
  | task t =>
    obtain ⟨base, hh⟩ := hh
    refine ⟨base, hh.follows.mono .inl, hsaid ▸ hh.spoken.mono hsh, ?_, ?_⟩
    · exact fun hb f hf => List.mem_append_left _ (hh.first hb f hf)
    · exact fun hp a k ha hk => .inl (hh.answered hp a k ha hk)
  | cursor k =>
    refine ⟨hsaid ▸ Cursor.Fits.word hh, ?_⟩
    intro he
    obtain ⟨ha, hb⟩ := Cursor.Fits.underway hh he
    exact ⟨hsaid ▸ ha, .inl hb⟩
  | dropped d => exact ⟨hsaid ▸ hh.1, .inl hh.2⟩

theorem Client.Begins.fits (hb : Begins c e t) (htoken : (Holder.task t).token? = some token)
    (hs : s.said = []) : t.Fits token (s.next c e token) [] := by
  have he : e.enqueues = false := by cases hb <;> rfl
  have hsaid : (s.next c e token).said = [] := by
    simp [Known.next, hs, queues_eq_nil (not_fills he), on]
  have hp : t.phase = .unsent := hb.fresh.phase
  have ha : t.answer = none := hb.fresh.answer
  refine ⟨?_, ?_, ?_, ?_⟩
  · cases hb with
    | close => cases htoken
    | run | silent | noreplyWait | serverInfo => rfl
  · simp only [Task.Spoken, hp]
    exact hsaid
  · intro _ f hf
    apply List.mem_append_right
    cases hb with
    | close => cases htoken
    | run hc | silent hc =>
      obtain rfl := Work.frame.inj hf
      simp [opens, hc]
    | noreplyWait | serverInfo =>
      obtain rfl := Work.frame.inj hf
      exact List.mem_singleton_self _
  · intro _ a k hn
    rw [ha] at hn
    cases hn

namespace Client

theorem Regular.fits_carry (hr : Regular c) (hshut : s.shut = c.shut)
    (hnew : c.issued < token.toNat → s.said = []) :
    Carries c e token (Holder.Fits token s) (Holder.Fits token (s.next c e token)) where
  cursor := by
    intro k hk ht hfit
    exact hfit.next (hr.queues_on_eq_nil hk (congrArg some ht) fun t ht => by cases ht) hshut
  dropped := by
    intro hd hfit
    exact hfit.next (hr.queues_on_eq_nil hd rfl fun t ht => by cases ht) hshut
  marked := by
    rintro t u ht htoken hm ⟨base, hfit⟩
    exact ⟨base, hfit.marked hr ht htoken hshut hm⟩
  begins := fun t hb htoken hlt => ⟨[], hb.fits htoken (hnew hlt)⟩
  passes := by
    intro i o j _ hi ha hp ho hfit
    have hq : on token (c.queues e) = [] := by simp [queues_eq_nil (not_fills hp.enqueues), on]
    exact (hfit.passes hp ha hi ho).next hq hshut

def known (c : Client) (events : List Event) (token : UInt64) : Known where
  opened := c.opened events
  shut := (c.after events).shut
  said := on token (c.queued events)
  batched := Once (Batches token) c events

theorem known_concat (c : Client) (events : List Event) (e : Event) (token : UInt64) :
    c.known (events ++ [e]) token = (c.known events token).next (c.after events) e token := by
  simp [known, Known.next, opened_concat, after_concat, queued_concat, on_append, once_concat]

theorem token_le_of_queues (h : Orderly c) (hf : f ∈ c.queues e) : f.token.toNat ≤ c.issued := by
  have hm : f ∈ on f.token (c.queues e) := List.mem_filter.mpr ⟨hf, beq_self_eq_true _⟩
  rcases queues_on c e f.token with hq | ⟨t, g, ht, hw, hg, -, -, -⟩
  · rw [hq] at hm
    cases hm
  · rw [← hg]
    exact (h.tasks t (task_mem_holders.mp ht)).frame g hw

structure Spoken (c : Client) (events : List Event) : Prop where
  regular : Regular (c.after events)
  fits : ∀ j ∈ (c.after events).holders, ∀ token, j.token? = some token →
    j.Fits token (c.known events token)
  words : ∀ token, Word token (on token (c.queued events))
  issued : ∀ f ∈ c.queued events, f.token.toNat ≤ (c.after events).issued

theorem Spoken.word_concat {events : List Event} (h : Spoken c events) (e : Event)
    (token : UInt64) : Word token (on token (c.queued (events ++ [e]))) := by
  rw [queued_concat, on_append]
  rcases queues_on (c.after events) e token with hq | ⟨t, f, ht, hf, hft, -, ha, hq⟩
  · rw [hq, List.append_nil]
    exact h.words token
  · obtain ⟨base, hfit⟩ := h.fits _ ht token (by simp [Holder.token?, hf, Work.frame?, hft])
    have hs := hfit.spoken
    simp only [Task.Spoken, ha.phase] at hs
    have hs : on token (c.queued events) = base := hs
    have hon : on token [f] = [f] := by simp [on, hft]
    rw [hq, hon, hs]
    exact word_of_follows (h.regular.apt t (task_mem_holders.mp ht)) hf hft hfit.follows

theorem spoken_after (db : Option String) {events : List Event}
    (fresh : (after { db } events).issued < UInt64.size) : Spoken { db } events := by
  induction events, fresh using induct_fresh with
  | nil =>
    refine ⟨regular_start db, ?_, fun token => .unused, List.forall_mem_nil _⟩
    intro j hj
    simp [after, holders] at hj
  | concat events e _ fresh _ h =>
    have hle := issued_le_append { db } events [e]
    rw [after_concat] at fresh hle
    refine ⟨?_, ?_, h.word_concat e, ?_⟩
    · rw [after_concat]
      exact h.regular.step fresh
    · intro j hj token htoken
      rw [after_concat] at hj
      rw [known_concat]
      apply h.regular.carry fresh (h.regular.fits_carry rfl ?_) (fun i hi => h.fits i hi token) j hj
        htoken
      intro hlt
      apply List.filter_eq_nil_iff.mpr
      intro f hf hft
      have hi := h.issued f hf
      rw [beq_iff_eq.mp hft] at hi
      omega
    · intro f hf
      rw [queued_concat] at hf
      rw [after_concat]
      rcases List.mem_append.mp hf with hf | hf
      · exact Nat.le_trans (h.issued f hf) hle
      · exact Nat.le_trans (token_le_of_queues h.regular.orderly hf) hle

/-- What goes to the server: tokens are handed out one after the other, a query or other request of
its own has a token that has been handed out for it, requests for a batch and to stop go with a
query that has had a batch, and what is said on one token makes a word. -/
structure WireLanguage (c : Client) (events : List Event) : Prop where
  handedOut : (c.opened events).map Frame.token =
    (List.range (c.after events).issued).map fun i => UInt64.ofNat (i + 1)
  distinct : ((c.opened events).map Frame.token).Nodup
  first : ∀ before e, before ++ [e] <+: events → ∀ f ∈ (c.after before).queues e,
    f.queryType? = some .start ∨ f.queryType? = some .noreplyWait ∨
      f.queryType? = some .serverInfo → f ∈ c.opened before
  later : ∀ before e, before ++ [e] <+: events → ∀ f ∈ (c.after before).queues e,
    f.queryType? = some .fetch ∨ f.queryType? = some .stop →
      (∃ g ∈ c.queued before, g.token = f.token ∧ g.queryType? = some .start) ∧
        Once (Batches f.token) c before
  words : ∀ token, Word token (on token (c.queued events))

theorem opens_tokens (c : Client) (e : Event) : (c.opens e).map Frame.token =
    (List.range (c.opens e).length).map fun i => UInt64.ofNat (c.issued + i + 1) := by
  unfold opens
  split
  · split <;> rfl
  · rfl
  · rfl
  · rfl

theorem opened_tokens (c : Client) (events : List Event) : (c.opened events).map Frame.token =
    (List.range ((c.after events).issued - c.issued)).map fun i =>
      UInt64.ofNat (c.issued + i + 1) := by
  induction events generalizing c with
  | nil => simp [opened, after]
  | cons e r ih =>
    have hs := issued_step c e
    have hle := issued_le_after (c.step e) r
    have ha : c.after (e :: r) = (c.step e).after r := rfl
    have hn : ((c.step e).after r).issued - c.issued =
        (c.opens e).length + (((c.step e).after r).issued - (c.step e).issued) := by omega
    rw [opened, List.map_append, ih, opens_tokens, ha, hn, List.range_add, List.map_append,
      List.map_map, hs]
    congr 1
    apply List.map_congr_left
    intro i _
    simp only [Function.comp, Nat.add_assoc]

theorem issued_after_le (c : Client) (events : List Event) :
    (c.after events).issued ≤ c.issued + events.length := by
  induction events generalizing c with
  | nil => exact Nat.le_refl _
  | cons e r ih =>
    have ho : (c.opens e).length ≤ 1 := by
      rcases opens_cases c e with ho | ⟨f, ho, -⟩ <;> simp [ho]
    have hs := issued_step c e
    have hr := ih (c.step e)
    have ha : c.after (e :: r) = (c.step e).after r := rfl
    rw [ha, List.length_cons]
    omega

theorem nodup_tokens {n : Nat} (h : n < UInt64.size) :
    ((List.range n).map fun i => UInt64.ofNat (i + 1)).Nodup := by
  apply List.Nodup.map_on _ List.nodup_range
  intro i hi j hj he
  have hi := List.mem_range.mp hi
  have hj := List.mem_range.mp hj
  have ht := congrArg UInt64.toNat he
  rw [UInt64.toNat_ofNat_of_lt' (by omega), UInt64.toNat_ofNat_of_lt' (by omega)] at ht
  omega

theorem queryType_start {q : Term} {options : List (String × Json)} :
    (Frame.start token q options).queryType? = some .start := rfl

theorem queryType_control {type : QueryType} :
    (Frame.control token type).queryType? = some type := by
  cases type <;> rfl

theorem start_of_asking {frames : List Frame} (h : Asking token (on token frames)) :
    ∃ g ∈ frames, g.token = token ∧ g.queryType? = some .start := by
  obtain ⟨q, o, db, n, -, hs⟩ := h
  have hm : Frame.start token q (o.entries db) ∈ on token frames := hs ▸ List.mem_cons_self
  exact ⟨_, (List.mem_filter.mp hm).1, rfl, rfl⟩

theorem Spoken.queues {events : List Event} (h : Spoken c events)
    (hf : f ∈ (c.after events).queues e) : ∃ p base, Suits p (.frame f) ∧
      p.Follows f.token (Once (Batches f.token) c events) base ∧
      on f.token (c.queued events) = base ∧ (base = [] → f ∈ c.opened events) := by
  have hm : f ∈ on f.token ((c.after events).queues e) :=
    List.mem_filter.mpr ⟨hf, beq_self_eq_true _⟩
  rcases queues_on (c.after events) e f.token with hq | ⟨t, g, ht, hw, hg, -, ha, hq⟩
  · rw [hq] at hm
    cases hm
  · rw [hq] at hf
    obtain rfl := List.mem_singleton.mp hf
    obtain ⟨base, hfit⟩ := h.fits _ ht f.token (by simp [Holder.token?, hw, Work.frame?])
    have hs := hfit.spoken
    simp only [Task.Spoken, ha.phase] at hs
    have hapt := h.regular.apt t (task_mem_holders.mp ht)
    exact ⟨t.purpose, base, hw ▸ hapt, hfit.follows, hs, fun hb => hfit.first hb f hw⟩

theorem speaks_wireLanguage (db : Option String) (events : List Event)
    (fresh : (after { db } events).issued < UInt64.size) : WireLanguage { db } events := by
  have hbefore {before : List Event} {e : Event} (hb : before ++ [e] <+: events) :
      Spoken { db } before := by
    apply spoken_after
    obtain ⟨rest, rfl⟩ := hb
    rw [List.append_assoc] at fresh
    exact Nat.lt_of_le_of_lt (issued_le_append _ before _) fresh
  have htokens : (opened { db } events).map Frame.token =
      (List.range (after { db } events).issued).map fun i => UInt64.ofNat (i + 1) := by
    simpa using opened_tokens { db } events
  refine ⟨htokens, htokens ▸ nodup_tokens fresh, ?_, ?_, (spoken_after db fresh).words⟩
  · intro before e hb f hf htype
    obtain ⟨p, base, hsuits, hfollows, -, hfirst⟩ := (hbefore hb).queues hf
    cases hsuits with
    | run | silent | noreplyWait | serverInfo => exact hfirst hfollows
    | next | collect | stop | abandon => simp [queryType_control] at htype
  · intro before e hb f hf htype
    obtain ⟨p, base, hsuits, hfollows, hsaid, -⟩ := (hbefore hb).queues hf
    cases hsuits with
    | run | silent => simp [queryType_start] at htype
    | noreplyWait | serverInfo => simp [queryType_control] at htype
    | next | collect | stop | abandon =>
      exact ⟨start_of_asking (hsaid ▸ hfollows.1), hfollows.2⟩

theorem speaks_wireLanguage_of_dropped_cursor :
    let first : Frame := ⟨1, .array [.int 3, .array [.bool true]]⟩
    let events : List Event := [.call (.run (.datum .null) {}), .enqueue 0, .write, .receive first,
      .resume 0, .call (.next 1), .call (.next 1), .enqueue 2, .cancel 2, .dropCursor 1,
      .stopDropped 1, .enqueue 3]
    (after {} events).issued < UInt64.size ∧
      (queued {} events).map (fun f => (f.token, f.queryType?)) =
        [(1, some .start), (1, some .fetch), (1, some .stop)] ∧
      WireLanguage {} events := by
  intro first events
  have fresh : (after {} events).issued < UInt64.size :=
    Nat.lt_of_le_of_lt (issued_after_le _ _) (by decide)
  exact ⟨fresh, by decide +kernel, speaks_wireLanguage none events fresh⟩

end Client

end ReqlDriver
