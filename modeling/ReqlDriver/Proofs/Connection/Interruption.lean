import ReqlDriver.Proofs.Connection.Returned

namespace ReqlDriver.Client

def Event.arrives : Event → Option Frame
  | .receive f => some f
  | _ => none

def received (token : UInt64) (events : List Event) : List Frame :=
  on token (events.filterMap Event.arrives)

/-- At no time has the server sent more on a token than it owed at first and was asked for. -/
def Solicited (token : UInt64) (owed : Nat) (c : Client) (events : List Event) : Prop :=
  ∀ before ∈ events.inits, (received token before).length + (on token c.written).length ≤
    owed + (on token (c.after before).written).length

instance (token : UInt64) (owed : Nat) (c : Client) (events : List Event) :
    Decidable (Solicited token owed c events) :=
  inferInstanceAs (Decidable (∀ before ∈ events.inits, _))

/-- A call for the next row is given up when its request is in the queue, or has left it. -/
def Forsakes (token : UInt64) (c : Client) (e : Event) : Prop :=
  ∃ t k, t ∈ c.tasks ∧ e = .cancel t.id ∧ t.purpose = .next k ∧ k.token = token ∧
    (t.phase = .queued ∨ t.phase = .written)

def lined (token : UInt64) (c : Client) : List (Work × Nat) :=
  c.queue.filter fun w => w.1.frame?.any fun f => f.token == token

inductive Moves (token : UInt64) (c : Client) (e : Event) : Prop
  | rests : (c.step e).lined token = c.lined token →
      on token (c.step e).written = on token c.written → Moves token c e
  | queues {t : Task} : t ∈ c.tasks → (Holder.task t).token? = some token → e = .enqueue t.id →
      c.Admits t → (c.step e).lined token = c.lined token ++ [(t.work, t.id)] →
      on token (c.step e).written = on token c.written → Moves token c e
  | writes {w : Work × Nat} {rest : List (Work × Nat)} : e = .write →
      c.queue = w :: rest → c.lined token = w :: (c.step e).lined token →
      (on token (c.step e).written).length = (on token c.written).length + 1 → Moves token c e
  | fails {w : Work × Nat} : e.writes = true → c.lined token = w :: (c.step e).lined token →
      on token (c.step e).written = on token c.written → Moves token c e

inductive Flow (token : UInt64) (c : Client) : Nat → Prop
  | still : c.lined token = [] → Flow token c 0
  | queued {t : Task} {k : Cursor} : Fetching token c t k → c.lined token = [(t.work, t.id)] →
      Flow token c 0
  | asked {t : Task} {k : Cursor} : Fetching token c t k → t.phase = .written →
      t.answer = none → c.lined token = [] → Flow token c 1

def Patient (token : UInt64) (c : Client) : Prop :=
  ∀ t ∈ c.tasks, (Holder.task t).token? = some token → t.phase = .unsent ∨ t.phase = .queued →
    t.answer = none

variable {c : Client} {e : Event} {k : Cursor} {t u : Task} {token : UInt64} {owed : Nat}
  {events r : List Event} {rows : List Datum}

theorem received_cons (token : UInt64) (e : Event) (r : List Event) :
    received token (e :: r) = received token [e] ++ received token r := by
  have hs : e :: r = [e] ++ r := rfl
  rw [received, hs, List.filterMap_append, on_append]
  rfl

theorem Solicited.tail (h : Solicited token owed c (e :: r)) {rest : Nat}
    (hr : rest + (received token [e]).length + (on token c.written).length =
      owed + (on token (c.step e).written).length) : Solicited token rest (c.step e) r := by
  intro before hb
  have hm : e :: before ∈ (e :: r).inits := by simpa using hb
  have hs : c.after (e :: before) = (c.step e).after before := rfl
  have hle := h _ hm
  rw [received_cons, List.length_append, hs] at hle
  omega

theorem Solicited.head (h : Solicited token owed c (e :: r)) :
    (received token [e]).length + (on token c.written).length ≤
      owed + (on token (c.step e).written).length :=
  h [e] (by cases r <;> simp)

theorem received_receive {f : Frame} (hf : f.token = token) :
    received token [.receive f] = [f] := by
  simp [received, on, Event.arrives, hf]

theorem received_eq_nil (h : ¬ ∃ f, e = .receive f ∧ f.token = token) :
    received token [e] = [] := by
  cases e with
  | receive f =>
    have hf : f.token ≠ token := fun hf => h ⟨f, rfl, hf⟩
    simp [received, on, Event.arrives, hf]
  | _ => rfl

theorem saves_eq_none (h : ¬ ∃ f, e = .receive f ∧ f.token = token) :
    c.saves token e r = none := by
  cases hs : c.saves token e r with
  | none => rfl
  | some f =>
    obtain ⟨he, hf, -⟩ := saves_eq_some hs
    exact absurd ⟨f, he, hf⟩ h

theorem saves_sublist (token : UInt64) (c : Client) (e : Event) (r : List Event) :
    (c.saves token e r).toList.Sublist (received token [e]) := by
  cases hs : c.saves token e r with
  | none => exact List.nil_sublist _
  | some f =>
    obtain ⟨rfl, hf, -⟩ := saves_eq_some hs
    rw [received_receive hf]
    exact List.Sublist.refl _

theorem kept_sublist (token : UInt64) (c : Client) (events : List Event) :
    (c.kept token events).Sublist (received token events) := by
  induction events generalizing c with
  | nil => exact List.nil_sublist _
  | cons e r ih =>
    rw [received_cons]
    exact (saves_sublist token c e r).append (ih _)

theorem Recorded.kept_closed (h : Recorded c) (hc : c.closed = true) (events : List Event) :
    c.kept token events = [] := by
  induction events generalizing c with
  | nil => rfl
  | cons e r ih =>
    have hs : c.saves token e r = none := by
      cases hs : c.saves token e r with
      | none => rfl
      | some f =>
        obtain ⟨-, -, id, hg⟩ := saves_eq_some hs
        have hp := mem_of_lookup_eq_some hg
        rw [h.pending hc] at hp
        cases hp
    rw [kept, hs, ih (h.step e) (by rw [closed_step, hc, Bool.true_or])]
    rfl

theorem phase_write {w : Work × Nat} {rest : List (Work × Nat)} (hq : c.queue = w :: rest)
    (hu : u ∈ c.write.tasks) (hi : u.id = w.2) : u.phase = .written := by
  obtain ⟨work, id⟩ := w
  cases work with
  | frame f =>
    simp only [write, hq] at hu
    obtain ⟨t, -, rfl⟩ := List.mem_map.mp hu
    split at hi
    · simp [*]
    · contradiction
  | shutdown =>
    simp only [write, hq] at hu
    obtain ⟨t, -, rfl⟩ := List.mem_map.mp hu
    by_cases ht : t.id = id
    · simp [ht]
    · rw [if_neg ht] at hi
      split at hi <;> exact absurd hi ht

theorem Orderly.moves (h : Orderly c) (hc : c.closed = false) (token : UInt64) (e : Event) :
    Moves token c e := by
  obtain ⟨s, hs, hq, hw⟩ : ∃ s, Stands c e s ∧ (c.step e).queue = s.queue ∧
      (c.step e).written = s.written := ⟨_, stands_step c e, rfl, rfl⟩
  have hrests (hsq : s.queue = c.queue) (hsw : s.written = c.written) : Moves token c e :=
    .rests (by rw [lined, hq, hsq, lined]) (by rw [hw, hsw])
  cases hs with
  | quiet | idle | spared => exact hrests rfl rfl
  | shut hs => exact absurd rfl ((h.sending hc).queue _ (hs ▸ List.mem_cons_self))
  | queued ht ha =>
    rename_i t
    have hm := (mem_of_task? ht).1
    by_cases htoken : (Holder.task t).token? = some token
    · refine .queues hm htoken rfl ha ?_ (congrArg (on token) hw)
      obtain ⟨f, hf, hft⟩ := work_of_token htoken
      simp [lined, hq, hf, Work.frame?, hft]
    · refine .rests ?_ (congrArg (on token) hw)
      have hn : ¬ (t.work.frame?.any fun f => f.token == token) = true := by
        cases hf : t.work <;> simp_all [Holder.token?, Work.frame?]
      simp [lined, hq, hn]
  | @written f id rest hc =>
    by_cases hf : f.token = token
    · refine .writes rfl hc ?_ ?_
      · simp [lined, hc, hq, Work.frame?, hf]
      · simp [hw, on, hf]
    · refine .rests ?_ ?_
      · simp [lined, hc, hq, Work.frame?, hf]
      · simp [hw, on, hf]
  | @failed f id rest fault hc =>
    by_cases hf : f.token = token
    · refine .fails (w := (.frame f, id)) rfl ?_ (congrArg (on token) hw)
      simp [lined, hc, hq, Work.frame?, hf]
    · refine .rests ?_ (congrArg (on token) hw)
      simp [lined, hc, hq, Work.frame?, hf]

theorem Patient.step (h : Patient token c) (hr : Regular c) (ho : (c.step e).closed = false)
    (hn : ∀ t ∈ c.tasks, (Holder.task t).token? = some token →
      t.phase = .unsent ∨ t.phase = .queued → ¬ ∃ f, e = .receive f ∧ f.token = token) :
    Patient token (c.step e) := by
  intro u hu htoken hp
  rcases (turn_step hr.toExclusive e).origin hu with ⟨t, ht, hm⟩ | hf | ⟨t, -, -, hf⟩
  · have htt : (Holder.task t).token? = some token := by
      simpa [Holder.token?, hm.work_eq] using htoken
    cases hm with
    | same => exact h _ ht htt hp
    | queued ha => exact h t ht htt (.inl ha.phase)
    | answered f hg =>
      have hft := hr.orderly.token_of_waiting ht htt (mem_of_lookup_eq_some hg) rfl
      exact absurd ⟨f, rfl, hft⟩ (hn t ht htt hp)
    | ended he =>
      rw [closed_step, he, Bool.or_true] at ho
      cases ho
    | barred | written | missed | failed => simp at hp
  · exact hf.answer
  · exact hf.answer

theorem Fetching.eq (h : Fetching token c t k) (hr : Regular c) (hu : u ∈ c.tasks)
    (htoken : (Holder.task u).token? = some token) : u = t :=
  Holder.task.inj (hr.eq (task_mem_holders.mpr hu) (task_mem_holders.mpr h.task) htoken (h.held hr))

theorem Stock.fetching (h : Stock token c events rows) (hr : Regular c) (ht : t ∈ c.tasks)
    (htoken : (Holder.task t).token? = some token) : ∃ k, Fetching token c t k := by
  cases h with
  | idle hk hkt =>
    cases hr.eq (task_mem_holders.mpr ht) (cursor_mem_holders.mpr hk) htoken (congrArg some hkt)
  | asked hf => exact ⟨_, hf.eq hr ht htoken ▸ hf⟩

theorem Fetching.resume (h : Fetching token c t k) (hr : Regular c) (hp : t.phase ≠ .refused)
    (hn : t.phase = .written → t.answer = none) : c.step (.resume t.id) = c := by
  have ha : t.purpose.awaits = true := by
    rw [h.purpose]
    rfl
  exact resume_of_waiting (hr.orderly.task?_eq h.task) ha hp hn

theorem Fetching.forsakes (h : Fetching token c t k)
    (hp : t.phase = .queued ∨ t.phase = .written) : Forsakes token c (.cancel t.id) :=
  ⟨t, k, h.task, rfl, h.purpose, h.cursor, hp⟩

theorem Regular.not_forgone (hr : Regular c) (fresh : (c.after events).issued < UInt64.size)
    (ht : t ∈ c.tasks) (hp : t.purpose = .next k) (hk : k.token = token)
    (hw : t.phase = .written) (hn : ¬ Once (Forsakes token) c events) :
    c.forgone t.id events = false := by
  induction events generalizing c t with
  | nil => rfl
  | cons e r ih =>
    have hs := Nat.lt_of_le_of_lt (issued_le_after (c.step e) r) fresh
    rw [Once, not_or] at hn
    by_cases hcancel : e = .cancel t.id
    · exact absurd ⟨t, k, ht, hcancel, hp, hk, .inr hw⟩ hn.1
    by_cases hresume : e = .resume t.id
    · rw [hresume, forgone_resume (hr.orderly.task?_eq ht), hw]
      rfl
    obtain ⟨u, hu, hm⟩ := hr.orderly.kept_step ht hcancel hresume
    have huw : u.phase = .written := by
      rw [hr.phase_marked ht hm (by simp [hw]) (by simp [hw]), hw]
    rw [forgone_other hcancel hresume, ← hm.id_eq]
    exact ih (hr.step hs) fresh hu (hm.purpose_eq.trans hp) huw hn.2

theorem mem_queue_of_lined {w : Work × Nat} {rest : List (Work × Nat)}
    (h : c.lined token = w :: rest) : w ∈ c.queue := by
  have hm : w ∈ c.lined token := h ▸ List.mem_cons_self
  exact (List.mem_filter.mp hm).1

structure Flow.Next (token : UInt64) (c : Client) (e : Event) (owed rest : Nat) : Prop where
  flow : Flow token (c.step e) rest
  count : rest + (received token [e]).length + (on token c.written).length =
    owed + (on token (c.step e).written).length

theorem Flow.still_step (hq : c.lined token = []) (hst : Stock token c events rows)
    (hr : Regular c) (hrec : Recorded c) (fresh : (c.step e).issued < UInt64.size)
    (hc : c.closed = false) (hf : ¬ ∃ f, e = .receive f ∧ f.token = token) :
    ∃ rest, Flow.Next token c e 0 rest := by
  have hrc := received_eq_nil hf
  cases hr.orderly.moves hc token e with
  | rests hl hw => exact ⟨0, .still (hl.trans hq), by simp [hrc, hw]⟩
  | queues ht htoken he ha hl hw =>
    obtain ⟨k, hft⟩ := hst.fetching hr ht htoken
    subst he
    obtain ⟨u, hu, hm, -⟩ := hft.step hr hrec fresh nofun nofun nofun
    rw [hq, ← hm.work_eq, List.nil_append] at hl
    exact ⟨0, .queued hu (hm.id_eq ▸ hl), by simp [hrc, hw]⟩
  | writes _ _ hl | fails _ hl =>
    rw [hq] at hl
    cases hl

theorem Flow.queued_step (hft : Fetching token c t k) (hq : c.lined token = [(t.work, t.id)])
    (hpatient : Patient token c) (hr : Regular c) (hrec : Recorded c)
    (fresh : (c.step e).issued < UInt64.size) (hc : c.closed = false)
    (hf : ¬ ∃ f, e = .receive f ∧ f.token = token) (hn : ¬ Forsakes token c e) :
    ∃ rest, Flow.Next token c e 0 rest := by
  have hrc := received_eq_nil hf
  have hp : t.phase = .queued := hr.queued _ (mem_queue_of_lined hq) t hft.task rfl
  by_cases hresume : e = .resume t.id
  · subst hresume
    have hs := hft.resume hr (by simp [hp]) (by simp [hp])
    exact ⟨0, by rw [hs]; exact .queued hft hq, by rw [hrc, hs]; rfl⟩
  have hcancel : e ≠ .cancel t.id := by
    rintro rfl
    exact hn (hft.forsakes (.inl hp))
  obtain ⟨u, hu, hm, -⟩ := hft.step hr hrec fresh hcancel hresume
    fun ⟨f, he, hft, _⟩ => hf ⟨f, he, hft⟩
  cases hr.orderly.moves hc token e with
  | rests hl hw =>
    rw [hq, ← hm.work_eq, ← hm.id_eq] at hl
    exact ⟨0, .queued hu hl, by simp [hrc, hw]⟩
  | queues ht htoken _ ha =>
    cases hp.symm.trans (hft.eq hr ht htoken ▸ ha.phase)
  | writes he hc hl hw =>
    subst he
    obtain ⟨rfl, hl'⟩ := List.cons.inj (hq.symm.trans hl)
    have huw := phase_write hc hu.task hm.id_eq
    have hun : u.answer = none := by
      have htn := hpatient t hft.task (hft.held hr) (.inr hp)
      cases hm with
      | ended he => cases he
      | _ => exact htn
    exact ⟨1, .asked hu huw hun hl'.symm, by simp [hrc, hw]; omega⟩
  | fails _ hl hw =>
    rw [hq] at hl
    exact ⟨0, .still (List.cons.inj hl).2.symm, by simp [hrc, hw]⟩

theorem Flow.asked_step (hft : Fetching token c t k) (hp : t.phase = .written)
    (hun : t.answer = none) (hq : c.lined token = []) (hr : Regular c) (hrec : Recorded c)
    (fresh : (c.step e).issued < UInt64.size) (hc : c.closed = false)
    (ho : (c.step e).closed = false) (hn : ¬ Forsakes token c e) :
    ∃ rest, Flow.Next token c e 1 rest := by
  by_cases hresume : e = .resume t.id
  · subst hresume
    have hs := hft.resume hr (by simp [hp]) fun _ => hun
    exact ⟨1, by rw [hs]; exact .asked hft hp hun hq, by rw [hs]; rfl⟩
  have hcancel : e ≠ .cancel t.id := by
    rintro rfl
    exact hn (hft.forsakes (.inr hp))
  cases hr.orderly.moves hc token e with
  | queues ht htoken _ ha =>
    cases hp.symm.trans (hft.eq hr ht htoken ▸ ha.phase)
  | writes _ _ hl | fails _ hl =>
    rw [hq] at hl
    cases hl
  | rests hl hw =>
    by_cases hf : ∃ f, e = .receive f ∧ f.token = token
    · obtain ⟨f, rfl, hft⟩ := hf
      exact ⟨0, .still (hl.trans hq), by simp [received_receive hft, hw]⟩
    · have hrc := received_eq_nil hf
      obtain ⟨u, hu, hm, -⟩ := hft.step hr hrec fresh hcancel hresume
        fun ⟨f, he, hft, _⟩ => hf ⟨f, he, hft⟩
      have hup : u.phase = .written := by
        rw [hr.phase_marked hft.task hm (by simp [hp]) (by simp [hp]), hp]
      have huun : u.answer = none := by
        cases hm with
        | answered f hg =>
          have hft := hr.orderly.token_of_waiting hft.task (hft.held hr)
            (mem_of_lookup_eq_some hg) rfl
          exact absurd ⟨f, rfl, hft⟩ hf
        | ended he =>
          rw [closed_step, he, Bool.or_true] at ho
          cases ho
        | _ => exact hun
      exact ⟨1, .asked hu hup huun (hl.trans hq), by simp [hrc, hw]⟩

theorem Flow.step (h : Flow token c owed) (hpatient : Patient token c)
    (hst : Stock token c events rows) (hr : Regular c) (hrec : Recorded c)
    (fresh : (c.step e).issued < UInt64.size) (ho : (c.step e).closed = false)
    (hf : (∃ f, e = .receive f ∧ f.token = token) → 0 < owed) (hn : ¬ Forsakes token c e) :
    ∃ rest, Flow.Next token c e owed rest := by
  have hc : c.closed = false := by
    rw [closed_step, Bool.or_eq_false_iff] at ho
    exact ho.1
  cases h with
  | still hq => exact still_step hq hst hr hrec fresh hc fun h => Nat.lt_irrefl _ (hf h)
  | queued hft hq =>
    exact queued_step hft hq hpatient hr hrec fresh hc (fun h => Nat.lt_irrefl _ (hf h)) hn
  | asked hft hp hun hq => exact asked_step hft hp hun hq hr hrec fresh hc ho hn

theorem forgone_receive {id : Nat} {f : Frame} :
    c.forgone id (.receive f :: r) = (c.receive f).forgone id r := forgone_other nofun nofun

theorem Flow.saves_eq {f : Frame} (h : Flow f.token c owed) (hr : Regular c)
    (hc : c.closed = false) (howed : 0 < owed)
    (fresh : (c.after (.receive f :: r)).issued < UInt64.size)
    (hn : ¬ Once (Forsakes f.token) c (.receive f :: r)) :
    c.saves f.token (.receive f) r = some f := by
  cases h with
  | still | queued => exact absurd howed (Nat.lt_irrefl _)
  | asked hft hp hun =>
    have hg := hft.get? hr (hft.waits hc hun)
    have hforgone := hr.not_forgone fresh hft.task hft.purpose hft.cursor hp hn
    rw [forgone_receive] at hforgone
    simp [saves, hg, hforgone]

theorem Flow.phase_eq (h : Flow token c owed) (hr : Regular c) (howed : 0 < owed)
    (ht : t ∈ c.tasks) (htoken : (Holder.task t).token? = some token) : t.phase = .written := by
  cases h with
  | still | queued => exact absurd howed (Nat.lt_irrefl _)
  | asked hft hp => exact hft.eq hr ht htoken ▸ hp

theorem Flow.kept_of_solicited (h : Flow token c owed) (hpatient : Patient token c)
    (hst : Stock token c events rows) (hr : Regular c) (hrec : Recorded c)
    (hc : c.closed = false) (fresh : (c.after events).issued < UInt64.size)
    (hclaims : ∀ e ∈ events, e.claims token = false) (hs : Solicited token owed c events)
    (hn : ¬ Once (Forsakes token) c events) :
    c.kept token events <+: received token events := by
  induction events generalizing c owed rows with
  | nil => exact List.nil_prefix
  | cons e r ih =>
    have hle := Nat.lt_of_le_of_lt (issued_le_after (c.step e) r) fresh
    obtain ⟨he, hclaims⟩ := List.forall_mem_cons.mp hclaims
    have howed (hf : ∃ f, e = .receive f ∧ f.token = token) : 0 < owed := by
      obtain ⟨f, rfl, hf⟩ := hf
      have hw : (c.step (.receive f)).written = c.written :=
        congrArg Standing.written (standing_receive c f)
      have hh := hs.head
      rw [received_receive hf, hw, List.length_singleton] at hh
      omega
    have hsaves : (c.saves token e r).toList = received token [e] := by
      by_cases hf : ∃ f, e = .receive f ∧ f.token = token
      · have hpos := howed hf
        obtain ⟨f, rfl, rfl⟩ := hf
        rw [h.saves_eq hr hc hpos fresh hn, received_receive rfl]
        rfl
      · rw [saves_eq_none hf, received_eq_nil hf]
        rfl
    rw [kept, received_cons, hsaves]
    apply (List.prefix_append_right_inj _).mpr
    cases ho : (c.step e).closed with
    | true =>
      rw [(hrec.step e).kept_closed ho]
      exact List.nil_prefix
    | false =>
      rw [Once, not_or] at hn
      obtain ⟨rest, hnext⟩ := h.step hpatient hst hr hrec hle ho howed hn.1
      obtain ⟨_, hst', -⟩ := hst.step hrec hr hle he
      have hp : Patient token (c.step e) := by
        refine hpatient.step hr ho ?_
        rintro t ht htoken hphase hf
        rw [h.phase_eq hr (howed hf) ht htoken] at hphase
        simp at hphase
      exact ih hnext.flow hp hst' (hr.step hle) (hrec.step e) ho fresh hclaims
        (hs.tail hnext.count) hn.2

theorem Regular.patient (hr : Regular c) (hk : c.cursor? token = some k) : Patient token c := by
  intro t ht htoken
  cases hr.eq (cursor_mem_holders.mpr (mem_of_cursor? hk)) (task_mem_holders.mpr ht)
    (congrArg some (token_of_cursor? hk)) htoken

/-- Whatever calls for the next row are given up, the rows returned come in order, and none of them
twice: they are the first of those in the cursor and in the frames that calls have taken in, which
are some of those that have arrived. If the server sends batches only when it is asked for them, and
no call is given up once its request is in the queue, no row is left out. -/
theorem returned_in_order (reachable : Reachable c) (held : c.cursor? token = some k)
    (fresh : (c.after events).issued < UInt64.size)
    (unclaimed : ∀ e ∈ events, e.claims token = false) :
    c.returned token events <+:
      k.buffer ++ (c.kept token events).flatMap (fun f => f.answer.rows) ∧
    (c.kept token events).Sublist (received token events) ∧
    (c.lined token = [] → Solicited token 0 c events → ¬ Once (Forsakes token) c events →
      c.returned token events <+:
        k.buffer ++ (received token events).flatMap (fun f => f.answer.rows)) := by
  have hrec := reachable.recorded
  have hr := reachable.regular (Nat.lt_of_le_of_lt (issued_le_after c events) fresh)
  have hst : Stock token c events k.buffer :=
    .idle (mem_of_cursor? held) (token_of_cursor? held) rfl
  have hp := hst.returned_of_kept hrec hr fresh unclaimed
  refine ⟨hp, kept_sublist token c events, fun hq hs hn => hp.trans ?_⟩
  have hkept : c.kept token events <+: received token events := by
    cases hc : c.closed with
    | true => exact hrec.kept_closed hc events ▸ List.nil_prefix
    | false =>
      exact (Flow.still hq).kept_of_solicited (hr.patient held) hst hr hrec hc fresh unclaimed hs hn
  obtain ⟨rest, hrest⟩ := hkept
  rw [← hrest, List.flatMap_append, ← List.append_assoc]
  exact List.prefix_append _ _

theorem returned_in_order_of_early_drop :
    let c := ({} : Client).after [.call (.run (.datum .null) {}), .enqueue 0, .write,
      .receive ⟨1, .array [.int 3, .array [.string "a"]]⟩, .resume 0]
    let events : List Event := [.call (.next 1), .call (.next 1), .cancel 2, .call (.next 1),
      .enqueue 3, .write, .receive ⟨1, .array [.int 2, .array [.string "b"]]⟩, .resume 3]
    (c.returned 1 events).map Datum.asString? = [some "a", some "b"] ∧
      ∃ k, c.cursor? 1 = some k ∧ c.returned 1 events <+:
        k.buffer ++ (received 1 events).flatMap (fun f => f.answer.rows) := by
  intro c events
  have hc : Reachable c := ⟨none, _, rfl⟩
  obtain ⟨k, hk⟩ : ∃ k, c.cursor? 1 = some k := ⟨_, rfl⟩
  have fresh : (c.after events).issued < UInt64.size := by decide +kernel
  have hclaims : ∀ e ∈ events, e.claims 1 = false := by decide +kernel
  have hs : Solicited 1 0 c events := by decide +kernel
  have hphase : ∀ t ∈ (c.after (events.take 2)).tasks, t.phase = .unsent := by decide +kernel
  have hn : ¬ Once (Forsakes 1) c events := by
    rintro (h | h | ⟨t, _, ht, -, -, -, hp⟩ | h | h | h | h | h | h)
    case inr.inr.inl =>
      rw [hphase t ht] at hp
      simp at hp
    all_goals obtain ⟨_, _, _, ⟨⟩, _⟩ := h
  refine ⟨by decide +kernel, k, hk, ?_⟩
  exact (returned_in_order hc hk fresh hclaims).2.2 (by decide +kernel) hs hn

theorem returned_not_in_order :
    let c := ({} : Client).after [.call (.run (.datum .null) {}), .enqueue 0, .write,
      .receive ⟨1, .array [.int 3, .array [.string "a"]]⟩, .resume 0]
    let events : List Event := [.call (.next 1), .call (.next 1), .enqueue 2, .write, .cancel 2,
      .receive ⟨1, .array [.int 3, .array [.string "b"]]⟩, .call (.next 1), .enqueue 3, .write,
      .receive ⟨1, .array [.int 2, .array [.string "c"]]⟩, .resume 3]
    Reachable c ∧ c.lined 1 = [] ∧ Solicited 1 0 c events ∧
      (∀ e ∈ events, e.claims 1 = false) ∧
      ∃ k, c.cursor? 1 = some k ∧ ¬ c.returned 1 events <+:
        k.buffer ++ (received 1 events).flatMap (fun f => f.answer.rows) := by
  intro c events
  obtain ⟨k, hk, hb⟩ : ∃ k, c.cursor? 1 = some k ∧ k.buffer.map Datum.asString? = [some "a"] :=
    ⟨_, rfl, rfl⟩
  refine ⟨⟨none, _, rfl⟩, rfl, by decide +kernel, by decide +kernel, k, hk, fun hp => ?_⟩
  have hm := hp.map Datum.asString?
  rw [List.map_append, hb] at hm
  revert hm
  decide +kernel

end ReqlDriver.Client
