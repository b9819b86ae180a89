import ReqlDriver.Proofs.Connection.Finality
import ReqlDriver.Proofs.Connection.Shutdown

/-!
The rows that calls for the next one return, when callers give up some of the calls. A response that
is dispatched to a call is kept unless the call is given up, or its own request turns out not to
have been sent, before it takes the response in. What is returned is what is kept, row by row.
-/

namespace ReqlDriver

def Answer.rows (a : Answer) : List Datum :=
  match a.checked with
  | .error _ => []
  | .ok r => match r.type with
    | .successSequence => r.rows
    | .successPartial => r.rows
    | .successAtom => [r.result]
    | _ => []

theorem Cursor.receive_buffer (k : Cursor) (a : Answer) :
    (k.receive a).1.buffer = k.buffer ++ a.rows := by
  unfold receive Answer.rows
  cases a.checked with
  | error e => simp
  | ok r => cases ht : r.type <;> simp [ht]

def Purpose.isNext (token : UInt64) : Purpose → Bool
  | next k => k.token == token
  | _ => false

def Task.gained (t : Task) : List Datum :=
  match t.answer with
  | some a => a.rows
  | none => []

namespace Client

def nexts (token : UInt64) (c : Client) : Event → Bool
  | .call (.next other) => other == token
  | .resume id => (c.task? id).any fun t => t.purpose.isNext token
  | _ => false

def row? (r : Nat × Except Error Outcome) : Option Datum :=
  match r.2 with
  | .ok (.row d) => d
  | _ => none

def yields (token : UInt64) (c : Client) (e : Event) : List Datum :=
  if c.nexts token e then ((c.step e).finished.drop c.finished.length).filterMap row? else []

def returned (token : UInt64) (c : Client) : List Event → List Datum
  | [] => []
  | e :: r => c.yields token e ++ (c.step e).returned token r

def forgoes (id : Nat) (c : Client) : Event → Bool
  | .cancel i => i == id
  | .resume i => i == id && (c.task? id).any fun t => t.phase = .refused
  | _ => false

def absorbs (id : Nat) (c : Client) : Event → Bool
  | .resume i => i == id && (c.task? id).any fun t => t.phase = .written
  | _ => false

def forgone (id : Nat) (c : Client) : List Event → Bool
  | [] => false
  | e :: r => c.forgoes id e || !c.absorbs id e && (c.step e).forgone id r

/-- The frame that arrives on a token, if a call waits for it and takes it in. -/
def saves (token : UInt64) (c : Client) (e : Event) (later : List Event) : Option Frame :=
  match e with
  | .receive f =>
    if f.token = token then match c.waiters.get? token with
      | some id => if (c.receive f).forgone id later then none else some f
      | none => none
    else none
  | _ => none

def kept (token : UInt64) (c : Client) : List Event → List Frame
  | [] => []
  | e :: r => (c.saves token e r).toList ++ (c.step e).kept token r

structure Fetching (token : UInt64) (c : Client) (t : Task) (k : Cursor) : Prop where
  task : t ∈ c.tasks
  purpose : t.purpose = .next k
  cursor : k.token = token
  waits : c.closed = false → t.answer = none → (token, t.id) ∈ c.waiters.pending
  answered : t.answer ≠ none → token ∉ c.waiters.pending.map (·.1)

inductive Stock (token : UInt64) (c : Client) (later : List Event) (rows : List Datum) : Prop
  | idle {k : Cursor} : k ∈ c.cursors → k.token = token → rows = k.buffer →
      Stock token c later rows
  | asked {t : Task} {k : Cursor} : Fetching token c t k →
      rows = k.buffer ++ (if c.forgone t.id later then [] else t.gained) →
      Stock token c later rows

variable {c : Client} {e : Event} {id : Nat} {k : Cursor} {t u : Task} {token : UInt64}
  {later r : List Event} {rows : List Datum}

theorem next_token (ht : t.Apt) (hp : t.purpose = .next k) :
    t.work = .frame (Frame.control k.token .fetch) ∧
      (Holder.task t).token? = some k.token := by
  obtain ⟨id, purpose, work⟩ := t
  obtain rfl := hp
  cases ht
  exact ⟨rfl, rfl⟩

theorem isNext_iff {p : Purpose} :
    p.isNext token = true ↔ ∃ k, p = .next k ∧ k.token = token := by
  cases p <;> simp [Purpose.isNext]

theorem yields_of_same (hs : c.step e = c) : c.yields token e = [] := by
  simp [yields, hs]

theorem yields_of_finished {out : List (Nat × Except Error Outcome)}
    (hn : c.nexts token e = true) (hs : (c.step e).finished = c.finished ++ out) :
    c.yields token e = out.filterMap row? := by
  rw [yields, if_pos hn, hs, List.drop_left]

theorem stock_advance (c : Client) (id : Nat) (k : Cursor) (later : List Event) :
    ∃ out rows, (c.advance id k).finished = c.finished ++ out ∧
      k.buffer = out.filterMap row? ++ rows ∧ Stock k.token (c.advance id k) later rows := by
  cases hb : k.buffer with
  | cons d r =>
    rw [advance_row c id hb]
    exact ⟨[_], r, rfl, rfl, .idle List.mem_cons_self rfl rfl⟩
  | nil =>
    cases he : k.exhausted with
    | true =>
      rw [advance_ended c id hb he]
      exact ⟨[_], [], rfl, rfl, .idle List.mem_cons_self rfl hb.symm⟩
    | false =>
      cases hr : c.request id (.next k) (Frame.control k.token .fetch) with
      | ok d =>
        rw [advance_fetch c id hb he hr]
        obtain ⟨-, -, rfl⟩ := request_eq_ok_iff.mp hr
        let t : Task := { id, purpose := .next k, work := .frame (Frame.control k.token .fetch) }
        refine ⟨[], [], (List.append_nil _).symm, rfl, .asked (t := t) (k := k) ?_ ?_⟩
        · exact ⟨List.mem_append_right _ List.mem_cons_self, rfl, rfl,
            fun _ _ => List.mem_cons_self, absurd rfl⟩
        · simp [hb, Task.gained, t]
      | error e =>
        rw [advance_refused c id hb he hr]
        exact ⟨[_], [], rfl, rfl, .idle List.mem_cons_self rfl hb.symm⟩

theorem Regular.nexts_cases (h : Regular c) {j : Holder} (hj : j ∈ c.holders)
    (hjt : j.token? = some token) (hn : c.nexts token e = true) :
    e = .call (.next token) ∨ ∃ t, j = .task t ∧ e = .resume t.id := by
  cases e with
  | call call =>
    cases call with
    | next other => exact .inl (by rw [beq_iff_eq.mp hn])
    | _ => cases hn
  | resume id =>
    obtain ⟨t, ht, hp⟩ := (Option.any_eq_true _ _).mp hn
    obtain ⟨hm, rfl⟩ := mem_of_task? ht
    obtain ⟨k, hk, rfl⟩ := isNext_iff.mp hp
    have hi := (next_token (h.apt t hm) hk).2
    exact .inr ⟨t, h.eq hj (task_mem_holders.mpr hm) hjt hi, rfl⟩
  | _ => cases hn

theorem yields_eq_nil (hn : ¬ c.nexts token e = true) : c.yields token e = [] := if_neg hn

theorem Regular.waiting_eq (h : Regular c) {j : Holder} (hj : j ∈ c.holders)
    (hjt : j.token? = some token) {p : UInt64 × Nat} (hp : p ∈ c.waiters.pending)
    (hpt : p.1 = token) : ∃ t, j = .task t ∧ t.id = p.2 := by
  obtain ⟨t, ht, hi, -, f, hf, hft⟩ := h.orderly.waiting p hp
  have htoken : (Holder.task t).token? = some token := by
    simp [Holder.token?, hf, Work.frame?, hft, hpt]
  exact ⟨t, h.eq hj (task_mem_holders.mpr ht) hjt htoken, hi⟩

theorem saves_eq_some {f : Frame} (h : c.saves token e later = some f) :
    e = .receive f ∧ f.token = token ∧ ∃ id, c.waiters.get? token = some id := by
  unfold saves at h
  split at h
  · split at h
    · rename_i ht
      split at h
      · rename_i id hg
        split at h
        · cases h
        · obtain rfl := Option.some.inj h
          exact ⟨rfl, ht, id, hg⟩
      · cases h
    · cases h
  · cases h

theorem Regular.out_step (h : Regular c) (fresh : (c.step e).issued < UInt64.size)
    (ht : t ∈ c.tasks) (hu : u ∈ (c.step e).tasks) (hm : Marked c e t u)
    (htoken : (Holder.task t).token? = some token) (hr : e ≠ .resume t.id)
    (ho : token ∉ c.waiters.pending.map (·.1)) :
    token ∉ (c.step e).waiters.pending.map (·.1) := by
  intro hn
  obtain ⟨p, hp, rfl⟩ := List.mem_map.mp hn
  have hut : (Holder.task u).token? = some p.1 := by
    simpa [Holder.token?, hm.work_eq] using htoken
  obtain ⟨v, hv, hi⟩ := (h.step fresh).waiting_eq (task_mem_holders.mpr hu) hut hp rfl
  obtain rfl := Holder.task.inj hv
  rcases entered_step hp with hp | he
  · exact ho (List.mem_map_of_mem hp)
  · rw [← hi, hm.id_eq] at he
    have hb := h.orderly.begun t ht
    generalize hn : t.id = n at he hb hr
    cases he with
    | begins => exact absurd hb (Nat.lt_irrefl _)
    | resumes => exact hr rfl

theorem resume_next_cases {f : Frame} (ht : c.task? t.id = some t) (hp : t.purpose = .next k)
    (hw : t.work = .frame f) :
    (t.phase = .refused ∧
      c.resume t.id = ((c.dismiss t).hold k).finish t.id (.error t.refusal)) ∨
    (∃ a, t.phase = .written ∧ t.answer = some a ∧
      c.resume t.id = (c.dismiss t).proceed t.id (.next k) f.token a) ∨
    (t.phase ≠ .refused ∧ (t.phase = .written → t.answer = none) ∧ c.resume t.id = c) := by
  have ha : t.purpose.awaits = true := by
    rw [hp]
    rfl
  by_cases href : t.phase = .refused
  · refine .inl ⟨href, ?_⟩
    simp only [resume, ht, href, refuse, hp]
  by_cases hn : t.phase = .written → t.answer = none
  · exact .inr (.inr ⟨href, hn, resume_of_waiting ht ha href hn⟩)
  · obtain ⟨hphase, hn⟩ := Classical.not_imp.mp hn
    obtain ⟨a, hn⟩ := Option.ne_none_iff_exists'.mp hn
    refine .inr (.inl ⟨a, hphase, hn, ?_⟩)
    rw [resume_answered ht hphase ha hw hn, hp]

theorem Exclusive.cursor_stays (h : Exclusive c) (hk : k ∈ c.cursors)
    (hn : e ≠ .call (.next k.token)) (hc : e.claims k.token = false) :
    k ∈ (c.step e).cursors := by
  have hm := cursor_mem_holders.mpr hk
  apply cursor_mem_holders.mp
  cases turn_step h e with
  | stays g begins _ _ hs =>
    rw [hs]
    exact Multiset.mem_add.mpr (.inr (Multiset.mem_map.mpr ⟨_, hm, rfl⟩))
  | passes hp hh hs =>
    rw [hh] at hm
    rcases Multiset.mem_cons.mp hm with rfl | hm
    · cases hp with
      | next => exact absurd rfl hn
      | collect | stopped | stop | drop => simp [Event.claims] at hc
    · rw [hs]
      exact Multiset.mem_add.mpr (.inr hm)

theorem stock_proceed (c : Client) (id : Nat) (k : Cursor) (other : UInt64) (a : Answer)
    (later : List Event) : ∃ out rows,
      (c.proceed id (.next k) other a).finished = c.finished ++ out ∧
      k.buffer ++ a.rows = out.filterMap row? ++ rows ∧
      Stock k.token (c.proceed id (.next k) other a) later rows := by
  have hb := k.receive_buffer a
  have ht := receive_token k a
  rcases hr : k.receive a with ⟨j, _ | e⟩
  · rw [hr] at hb ht
    obtain ⟨out, rows, hf, hrows, hs⟩ := stock_advance c id j later
    simp only [proceed, hr]
    exact ⟨out, rows, hf, hb.symm.trans hrows, ht ▸ hs⟩
  · rw [hr] at hb ht
    simp only [proceed, hr]
    exact ⟨[(id, .error e)], j.buffer, rfl, hb.symm, .idle List.mem_cons_self ht rfl⟩

theorem forgone_other (hc : e ≠ .cancel id) (hr : e ≠ .resume id) :
    c.forgone id (e :: r) = (c.step e).forgone id r := by
  have hf : c.forgoes id e = false := by
    cases e with
    | cancel i => simpa [forgoes] using fun he => hc (congrArg _ he)
    | resume i => simp [forgoes, show i ≠ id from fun he => hr (congrArg _ he)]
    | _ => rfl
  have ha : c.absorbs id e = false := by
    cases e with
    | resume i => simp [absorbs, show i ≠ id from fun he => hr (congrArg _ he)]
    | _ => rfl
  simp [forgone, hf, ha]

theorem forgone_resume (ht : c.task? t.id = some t) : c.forgone t.id (.resume t.id :: r) =
    (decide (t.phase = .refused) ||
      !decide (t.phase = .written) && (c.step (.resume t.id)).forgone t.id r) := by
  simp [forgone, forgoes, absorbs, ht]

theorem gained_of_unanswered (h : t.answer = none) : t.gained = [] := by
  simp [Task.gained, h]

theorem Regular.get?_eq (h : Regular c) (ht : t ∈ c.tasks)
    (htoken : (Holder.task t).token? = some token) {id : Nat}
    (hg : c.waiters.get? token = some id) : t.id = id := by
  have hp := mem_of_lookup_eq_some hg
  obtain ⟨v, hv, hi⟩ := h.waiting_eq (task_mem_holders.mpr ht) htoken hp rfl
  obtain rfl := Holder.task.inj hv
  exact hi

theorem Stock.idle_step {k : Cursor} (hr : Regular c) (hk : k ∈ c.cursors) (ht : k.token = token)
    (hn : e.claims token = false) : ∃ rest, Stock token (c.step e) r rest ∧
      k.buffer ++ (c.saves token e r).toList.flatMap (fun f => f.answer.rows) =
        c.yields token e ++ rest := by
  have hm := cursor_mem_holders.mpr hk
  have hmt : (Holder.cursor k).token? = some token := congrArg some ht
  have hs : c.saves token e r = none := by
    cases hs : c.saves token e r with
    | none => rfl
    | some f =>
      obtain ⟨-, -, id, hg⟩ := saves_eq_some hs
      obtain ⟨t, he, -⟩ := hr.waiting_eq hm hmt (mem_of_lookup_eq_some hg) rfl
      cases he
  rw [hs]
  by_cases he : e = .call (.next token)
  · subst he ht
    have hs : c.step (.call (.next k.token)) = _ := call_next (hr.toExclusive.cursor?_eq hk)
    obtain ⟨out, rows, hf, hrows, hst⟩ :=
      stock_advance ({ c with begun := c.begun + 1 }.take k.token) c.begun k r
    have hy : c.yields k.token (.call (.next k.token)) = out.filterMap row? :=
      yields_of_finished (beq_self_eq_true _) (by rw [hs, hf]; rfl)
    rw [hs, hy]
    exact ⟨rows, hst, by simpa using hrows⟩
  · have hy : c.yields token e = [] := by
      apply yields_eq_nil
      intro hne
      rcases hr.nexts_cases hm hmt hne with h | ⟨t, h, -⟩
      · exact he h
      · cases h
    rw [hy]
    have hstays := hr.toExclusive.cursor_stays hk (ht ▸ he) (ht ▸ hn)
    exact ⟨k.buffer, .idle hstays ht rfl, by simp⟩

theorem Fetching.held (h : Fetching token c t k) (hr : Regular c) :
    (Holder.task t).token? = some token := h.cursor ▸ (next_token (hr.apt t h.task) h.purpose).2

theorem Fetching.yields_eq_nil (h : Fetching token c t k) (hr : Regular c)
    (he : e ≠ .resume t.id) : c.yields token e = [] := by
  have hm := task_mem_holders.mpr h.task
  by_cases hne : c.nexts token e = true
  · rcases hr.nexts_cases hm (h.held hr) hne with rfl | ⟨v, hv, rfl⟩
    · cases hc : c.cursor? token with
      | none => exact yields_of_same (by simp only [Client.step, Client.call, hc])
      | some j =>
        cases hr.eq hm (cursor_mem_holders.mpr (mem_of_cursor? hc)) (h.held hr)
          (congrArg some (token_of_cursor? hc))
    · obtain rfl := Holder.task.inj hv
      exact absurd rfl he
  · exact Client.yields_eq_nil hne

theorem Fetching.resume_step (h : Fetching token c t k) (hr : Regular c) :
    ∃ rest, Stock token (c.step (.resume t.id)) r rest ∧
      k.buffer ++ (if c.forgone t.id (.resume t.id :: r) then [] else t.gained) =
        c.yields token (.resume t.id) ++ rest := by
  have hs := hr.orderly.task?_eq h.task
  have hn : c.nexts token (.resume t.id) = true := by
    simp [nexts, hs, isNext_iff.mpr ⟨k, h.purpose, h.cursor⟩]
  have hd := finished_dismiss c t
  rw [forgone_resume hs]
  rcases resume_next_cases hs h.purpose (next_token (hr.apt t h.task) h.purpose).1 with
    ⟨hphase, he⟩ | ⟨a, hphase, ha, he⟩ | ⟨href, hwr, he⟩
  · have he : c.step (.resume t.id) = _ := he
    have hy : c.yields token (.resume t.id) = [(t.id, .error t.refusal)].filterMap row? :=
      yields_of_finished hn (by rw [he]; exact congrArg (· ++ _) hd)
    rw [he, hy]
    refine ⟨k.buffer, .idle List.mem_cons_self h.cursor rfl, ?_⟩
    simp [hphase, row?]
  · have he : c.step (.resume t.id) = _ := he
    obtain ⟨out, rows, hf, hrows, hst⟩ := stock_proceed (c.dismiss t) t.id k
      (Frame.control k.token .fetch).token a r
    have hy : c.yields token (.resume t.id) = out.filterMap row? :=
      yields_of_finished hn (by rw [he, hf, hd])
    rw [he, hy]
    refine ⟨rows, h.cursor ▸ hst, ?_⟩
    simpa [hphase, Task.gained, ha] using hrows
  · have he : c.step (.resume t.id) = c := he
    rw [yields_of_same he, he]
    refine ⟨_, .asked h rfl, ?_⟩
    by_cases hw : t.phase = .written
    · simp [gained_of_unanswered (hwr hw)]
    · simp [href, hw]

theorem Orderly.token_of_waiting (h : Orderly c) (ht : t ∈ c.tasks)
    (htoken : (Holder.task t).token? = some token) {p : UInt64 × Nat}
    (hp : p ∈ c.waiters.pending) (hi : p.2 = t.id) : p.1 = token := by
  obtain ⟨v, hv, hvi, -, f, hf, hft⟩ := h.waiting p hp
  obtain rfl := eq_of_nodup_map h.ids hv ht (hvi.trans hi)
  rw [← hft]
  simpa [Holder.token?, hf, Work.frame?] using htoken

theorem Fetching.step (h : Fetching token c t k) (hr : Regular c) (hrec : Recorded c)
    (fresh : (c.step e).issued < UInt64.size) (hc : e ≠ .cancel t.id)
    (hresume : e ≠ .resume t.id)
    (hg : ¬ ∃ f, e = .receive f ∧ f.token = token ∧ (token, t.id) ∈ c.waiters.pending) :
    ∃ u, Fetching token (c.step e) u k ∧ Marked c e t u ∧ u.gained = t.gained := by
  obtain ⟨u, hu, hm⟩ := hr.orderly.kept_step h.task hc hresume
  have htoken := h.held hr
  have hout (hn : t.answer ≠ none) : token ∉ (c.step e).waiters.pending.map (·.1) :=
    hr.out_step fresh h.task hu hm htoken hresume (h.answered hn)
  have hwaits (ho : (c.step e).closed = false) (hn : t.answer = none) :
      (token, t.id) ∈ (c.step e).waiters.pending := by
    rw [closed_step, Bool.or_eq_false_iff] at ho
    have hp := h.waits ho.1 hn
    rcases hr.leaves (e := e) hp with hp | hl
    · exact hp
    · cases hl with
      | answered hf => exact absurd ⟨_, rfl, hf, hp⟩ hg
      | resumed => exact absurd rfl hresume
      | cancelled => exact absurd rfl hc
      | ended he =>
        rw [he] at ho
        cases ho.2
  have hsame (ha : u.answer = t.answer) :
      ∃ u, Fetching token (c.step e) u k ∧ Marked c e t u ∧ u.gained = t.gained := by
    refine ⟨u, ⟨hu, hm.purpose_eq.trans h.purpose, h.cursor, ?_, ha ▸ hout⟩, hm, ?_⟩
    · exact fun ho hn => hm.id_eq ▸ hwaits ho (ha ▸ hn)
    · rw [Task.gained, ha, Task.gained]
  cases hm with
  | answered f hf =>
    have hp := mem_of_lookup_eq_some hf
    obtain rfl := hr.orderly.token_of_waiting h.task htoken hp rfl
    exact absurd ⟨f, rfl, rfl, hp⟩ hg
  | ended he hw =>
    obtain ⟨p, hp, hpi⟩ := List.mem_map.mp hw
    obtain rfl := hr.orderly.token_of_waiting h.task htoken hp hpi
    have hn : t.answer = none := by
      by_contra hn
      exact h.answered hn (List.mem_map_of_mem hp)
    have hopen : c.closed = false := by
      cases hopen : c.closed with
      | false => rfl
      | true =>
        rw [hrec.pending hopen] at hp
        cases hp
    refine ⟨_, ⟨hu, h.purpose, h.cursor, fun _ => nofun, fun _ => ?_⟩, .ended he hw,
      (gained_of_unanswered hn).symm⟩
    rw [waiters_of_ends hopen he]
    exact List.not_mem_nil
  | same | queued | barred | written | missed | failed => exact hsame rfl

theorem Fetching.get? (h : Fetching token c t k) (hr : Regular c)
    (hp : (token, t.id) ∈ c.waiters.pending) : c.waiters.get? token = some t.id := by
  cases hg : c.waiters.get? token with
  | none => exact absurd (List.mem_map_of_mem hp) (lookup_eq_none_iff_not_mem.mp hg)
  | some id => rw [hr.get?_eq h.task (h.held hr) hg]

theorem Fetching.receive {f : Frame} (h : Fetching f.token c t k) (hr : Regular c)
    (hg : c.waiters.get? f.token = some t.id) :
    ∃ u, Fetching f.token (c.step (.receive f)) u k ∧
      u.id = t.id ∧ u.answer = some f.answer := by
  obtain ⟨u, hu, hi, hup, -, ha⟩ := (hr.orderly.answered_receive h.task hg).task
  have hout : f.token ∉ (c.receive f).waiters.pending.map (·.1) := by
    rw [waiters_receive, Waiters.dispatch_of_get? hg]
    simp [Waiters.remove]
  refine ⟨u, ⟨hu, hup.trans h.purpose, h.cursor, fun _ hn => ?_, fun _ => hout⟩, hi, ha⟩
  rw [ha] at hn
  cases hn

theorem Fetching.receive_step {f : Frame} (h : Fetching f.token c t k) (hr : Regular c)
    (hp : (f.token, t.id) ∈ c.waiters.pending) :
    ∃ rest, Stock f.token (c.step (.receive f)) r rest ∧
      k.buffer ++ (if (c.step (.receive f)).forgone t.id r then [] else t.gained) ++
        (c.saves f.token (.receive f) r).toList.flatMap (fun f => f.answer.rows) = rest := by
  have hn : t.answer = none := by
    by_contra hn
    exact h.answered hn (List.mem_map_of_mem hp)
  have hg := h.get? hr hp
  obtain ⟨u, hu, hi, ha⟩ := h.receive hr hg
  refine ⟨_, .asked hu rfl, ?_⟩
  have hs : c.saves f.token (.receive f) r =
      if (c.receive f).forgone t.id r then none else some f := by
    simp [saves, hg]
  rw [hs, gained_of_unanswered hn, hi, Client.step]
  cases (c.receive f).forgone t.id r <;> simp [Task.gained, ha]

theorem Fetching.stock_step (h : Fetching token c t k) (hrec : Recorded c) (hr : Regular c)
    (fresh : (c.step e).issued < UInt64.size) : ∃ rest, Stock token (c.step e) r rest ∧
      k.buffer ++ (if c.forgone t.id (e :: r) then [] else t.gained) ++
        (c.saves token e r).toList.flatMap (fun f => f.answer.rows) =
        c.yields token e ++ rest := by
  have hs := hr.orderly.task?_eq h.task
  by_cases hcancel : e = .cancel t.id
  · subst hcancel
    have he : c.step (.cancel t.id) = (c.dismiss t).hold k := by
      simp only [Client.step, Client.cancel, hs, h.purpose]
    have hf : c.forgone t.id (.cancel t.id :: r) = true := by simp [forgone, forgoes]
    rw [he, hf]
    exact ⟨k.buffer, .idle List.mem_cons_self h.cursor rfl, by simp [saves, yields, nexts]⟩
  by_cases hresume : e = .resume t.id
  · subst hresume
    obtain ⟨rest, hst, hrows⟩ := h.resume_step (r := r) hr
    exact ⟨rest, hst, by simpa [saves] using hrows⟩
  rw [forgone_other hcancel hresume, h.yields_eq_nil hr hresume]
  by_cases hg : ∃ f, e = .receive f ∧ f.token = token ∧ (token, t.id) ∈ c.waiters.pending
  · obtain ⟨f, rfl, rfl, hp⟩ := hg
    exact h.receive_step hr hp
  · have hsaves : c.saves token e r = none := by
      cases hsv : c.saves token e r with
      | none => rfl
      | some f =>
        obtain ⟨he, hf, id, hid⟩ := saves_eq_some hsv
        obtain rfl := hr.get?_eq h.task (h.held hr) hid
        exact absurd ⟨f, he, hf, mem_of_lookup_eq_some hid⟩ hg
    obtain ⟨u, hu, hm, hgain⟩ := h.step hr hrec fresh hcancel hresume hg
    refine ⟨_, .asked hu rfl, ?_⟩
    simp [hsaves, hgain, hm.id_eq]

theorem Stock.step (h : Stock token c (e :: r) rows) (hrec : Recorded c) (hr : Regular c)
    (fresh : (c.step e).issued < UInt64.size) (hn : e.claims token = false) :
    ∃ rest, Stock token (c.step e) r rest ∧
      rows ++ (c.saves token e r).toList.flatMap (fun f => f.answer.rows) =
        c.yields token e ++ rest := by
  cases h with
  | idle hk ht hrows =>
    subst hrows
    exact Stock.idle_step hr hk ht hn
  | asked ha hrows =>
    subst hrows
    exact ha.stock_step hrec hr fresh

theorem Stock.returned_of_kept {events : List Event} (h : Stock token c events rows)
    (hrec : Recorded c) (hr : Regular c) (fresh : (c.after events).issued < UInt64.size)
    (hn : ∀ e ∈ events, e.claims token = false) :
    c.returned token events <+:
      rows ++ (c.kept token events).flatMap fun f => f.answer.rows := by
  induction events generalizing c rows with
  | nil => exact List.nil_prefix
  | cons e r ih =>
    have hs := Nat.lt_of_le_of_lt (issued_le_after (c.step e) r) fresh
    obtain ⟨he, hn⟩ := List.forall_mem_cons.mp hn
    obtain ⟨rest, hrest, heq⟩ := h.step hrec hr hs he
    have hp := ih hrest (hrec.step e) (hr.step hs) fresh hn
    rw [returned, kept, List.flatMap_append, ← List.append_assoc, heq, List.append_assoc]
    exact (List.prefix_append_right_inj _).mpr hp

end Client

end ReqlDriver
