import ReqlDriver.Proofs.Connection.Regular
import ReqlDriver.Proofs.Protocol.Payload

namespace ReqlDriver

def Purpose.codes : Purpose → List Nat
  | run => [1, 2, 3, 4, 5]
  | noreplyWait => [4]
  | serverInfo => [1, 5]
  | next _ => [1, 2, 3]
  | collect _ _ => [1, 2, 3]
  | _ => []

def Purpose.fault : Purpose → ResponseType → ProtocolFault
  | next _ => .unexpectedBatch
  | collect _ _ => .unexpectedBatch
  | _ => .unexpectedResponse

def Response.opened (r : Response) (token : UInt64) : Result :=
  match r.type with
  | .successSequence => .sequence r.rows
  | .successPartial => .cursor ⟨token, r.rows, false⟩
  | .waitComplete => .empty
  | _ => .atom r.result

def Cursor.fed (k : Cursor) (r : Response) : Cursor :=
  match r.type with
  | .successSequence => { k with buffer := k.buffer ++ r.rows, exhausted := true }
  | .successPartial => { k with buffer := k.buffer ++ r.rows }
  | _ => { k with buffer := k.buffer ++ [r.result], exhausted := true }

namespace Answer

def accepted (a : Answer) (codes : List Nat) (fault : ResponseType → ProtocolFault) : Answer :=
  a.checked.bind fun r => if r.type.code ∈ codes then .ok r else .error (.protocol (fault r.type))

variable {a : Answer} {r : Response}

theorem unexpected_eq (h : r.type.isError = false) :
    r.unexpected = .protocol (.unexpectedResponse r.type) := by
  unfold Response.unexpected Response.error?
  cases ht : r.type <;> simp_all [ResponseType.isError]

theorem isError_of_checked (h : a.checked = .ok r) : r.type.isError = false := by
  cases a with
  | error e => cases h
  | ok s =>
    cases he : s.type.isError <;> simp_all [checked, Except.bind]

theorem result_eq (a : Answer) (token : UInt64) : a.result token =
    (a.accepted [1, 2, 3, 4, 5] .unexpectedResponse).map fun r => r.opened token := by
  unfold result accepted
  cases hc : a.checked with
  | error e => rfl
  | ok r =>
    have he := isError_of_checked hc
    cases ht : r.type <;>
      simp_all [bind, Except.bind, Except.map, ResponseType.isError, ResponseType.code,
        Response.opened]

theorem waited_eq (a : Answer) : a.waited =
    (a.accepted [4] .unexpectedResponse).map fun _ => () := by
  unfold waited accepted
  cases hc : a.checked with
  | error e => rfl
  | ok r =>
    have hu := unexpected_eq (isError_of_checked hc)
    cases ht : r.type <;>
      simp_all [bind, Except.bind, Except.map, ResponseType.code]

theorem info_eq (a : Answer) : a.info =
    (a.accepted [1, 5] .unexpectedResponse).map Response.result := by
  unfold info accepted
  cases hc : a.checked with
  | error e => rfl
  | ok r =>
    have hu := unexpected_eq (isError_of_checked hc)
    cases ht : r.type <;>
      simp_all [bind, Except.bind, Except.map, ResponseType.code]

theorem receive_eq (a : Answer) (k : Cursor) :
    k.receive a = match a.accepted [1, 2, 3] .unexpectedBatch with
      | .ok r => (k.fed r, none)
      | .error e => ({ k with exhausted := k.exhausted || e.isQueryError }, some e) := by
  unfold Cursor.receive accepted
  cases hc : a.checked with
  | error e => rfl
  | ok r =>
    have he := isError_of_checked hc
    cases ht : r.type <;>
      simp_all [Except.bind, ResponseType.isError, ResponseType.code, Cursor.fed,
        Error.isQueryError]

end Answer

variable {f : Frame} {r : Response} {e : Error} {codes : List Nat}
  {fault : ResponseType → ProtocolFault}

namespace Frame

theorem accepted_reported (h : Response.reported? f.payload = some e) :
    f.answer.accepted codes fault = .error e := by
  rw [Answer.accepted, checked_reported h]
  rfl

theorem accepted_taken (h : Response.reported? f.payload = none)
    (hr : Response.ofJson f.payload = .ok r) (hc : r.type.code ∈ codes) :
    f.answer.accepted codes fault = .ok r := by
  simp [Answer.accepted, checked_unreported h hr, Except.bind, hc]

theorem accepted_other (fault : ResponseType → ProtocolFault)
    (h : Response.reported? f.payload = none)
    (hn : ∀ r, Response.ofJson f.payload = .ok r → r.type.code ∉ codes) :
    ∃ cause, f.answer.accepted codes fault = .error (.protocol cause) := by
  cases hr : Response.ofJson f.payload with
  | error cause =>
    refine ⟨cause, ?_⟩
    simp [Answer.accepted, Answer.checked, answer_eq_error hr, Except.bind]
  | ok r =>
    refine ⟨fault r.type, ?_⟩
    simp [Answer.accepted, checked_unreported h hr, Except.bind, hn r hr]

end Frame

theorem Response.isSome_reported? (v : Json) :
    (Response.reported? v).isSome = true ↔ Response.code? v ∈ [some 16, some 17, some 18] := by
  unfold Response.reported?
  split <;> simp_all

namespace Client

def Gives (c : Client) (id : Nat) (outcome : Except Error Outcome) : Prop :=
  (c.resume id).finished = c.finished ++ [(id, outcome)]

def Takes (c : Client) (t : Task) (token : UInt64) (r : Response) : Prop :=
  match t.purpose with
  | .run => c.Gives t.id (.ok (.result (r.opened token)))
  | .noreplyWait => c.Gives t.id (.ok .done)
  | .serverInfo => c.Gives t.id (.ok (.info r.result))
  | .next k => c.resume t.id = (c.dismiss t).advance t.id (k.fed r)
  | .collect k rows => c.resume t.id = (c.dismiss t).gather t.id (k.fed r) rows
  | _ => False

def relinquish (c : Client) (e : Error) : Purpose → Client
  | .next k => c.hold { k with exhausted := k.exhausted || e.isQueryError }
  | .collect k _ => c.abandon { k with exhausted := k.exhausted || e.isQueryError }
  | _ => c

variable {c : Client} {t : Task} {id : Nat} {a : Answer} {p : Purpose}

theorem relinquish_same (c : Client) (e : Error) (p : Purpose) :
    (c.relinquish e p).db = c.db ∧ (c.relinquish e p).waiters = c.waiters ∧
      (c.relinquish e p).issued = c.issued ∧ (c.relinquish e p).finished = c.finished := by
  unfold relinquish
  split
  · exact ⟨rfl, rfl, rfl, rfl⟩
  · unfold abandon
    split <;> exact ⟨rfl, rfl, rfl, rfl⟩
  · exact ⟨rfl, rfl, rfl, rfl⟩

theorem proceed_refused (hp : p.awaits = true) (h : a.accepted p.codes p.fault = .error e)
    (c : Client) (id : Nat) (token : UInt64) :
    c.proceed id p token a = (c.relinquish e p).finish id (.error e) := by
  cases p with
  | run =>
    have hr : a.result token = .error e := by
      rw [Answer.result_eq]
      exact congrArg _ h
    simp only [proceed, finishRun, hr, relinquish]
  | noreplyWait =>
    have hr : a.waited = .error e := by
      rw [Answer.waited_eq]
      exact congrArg _ h
    simp only [proceed, hr, relinquish]
    rfl
  | serverInfo =>
    have hr : a.info = .error e := by
      rw [Answer.info_eq]
      exact congrArg _ h
    simp only [proceed, hr, relinquish]
    rfl
  | next k | collect k rows =>
    have h : a.accepted [1, 2, 3] .unexpectedBatch = .error e := h
    simp only [proceed, Answer.receive_eq, h, relinquish]
  | silent | stop | abandon | close => cases hp

theorem proceed_failed (hp : p.awaits = true) (h : a.accepted p.codes p.fault = .error e)
    (c : Client) (id : Nat) (token : UInt64) :
    (c.proceed id p token a).finished = c.finished ++ [(id, .error e)] := by
  rw [proceed_refused hp h, finish, (relinquish_same c e p).2.2.2]

theorem resume_answered {f : Frame} (ht : c.task? t.id = some t) (hp : t.phase = .written)
    (ha : t.purpose.awaits = true) (hf : t.work = .frame f) (hn : t.answer = some a) :
    c.resume t.id = (c.dismiss t).proceed t.id t.purpose f.token a := by
  simp only [resume, ht, hp, ha, hf, hn, conclude]

theorem takes_of_accepted {f : Frame} (ht : c.resume t.id =
      (c.dismiss t).proceed t.id t.purpose f.token a) (ha : t.purpose.awaits = true)
    (h : a.accepted t.purpose.codes t.purpose.fault = .ok r) : c.Takes t f.token r := by
  have hgives {o : Except Error Outcome} (hr : (c.resume t.id).finished =
      (c.dismiss t).finished ++ [(t.id, o)]) : c.Gives t.id o := by
    rw [Gives, hr, finished_dismiss]
  unfold Takes
  cases hp : t.purpose with
  | run =>
    have hr : a.result f.token = .ok (r.opened f.token) := by
      rw [hp] at h
      rw [Answer.result_eq]
      exact congrArg _ h
    apply hgives
    rw [ht, hp]
    simp only [proceed, finishRun, hr]
    split <;> simp_all [finish, hold]
  | noreplyWait =>
    have hr : a.waited = .ok () := by
      rw [hp] at h
      rw [Answer.waited_eq]
      exact congrArg _ h
    apply hgives
    rw [ht, hp]
    simp only [proceed, hr]
    rfl
  | serverInfo =>
    have hr : a.info = .ok r.result := by
      rw [hp] at h
      rw [Answer.info_eq]
      exact congrArg _ h
    apply hgives
    rw [ht, hp]
    simp only [proceed, hr]
    rfl
  | next k =>
    rw [hp] at h
    have h : a.accepted [1, 2, 3] .unexpectedBatch = .ok r := h
    rw [ht, hp]
    simp only [proceed, Answer.receive_eq, h]
  | collect k rows =>
    rw [hp] at h
    have h : a.accepted [1, 2, 3] .unexpectedBatch = .ok r := h
    rw [ht, hp]
    simp only [proceed, Answer.receive_eq, h]
  | silent | stop | abandon | close =>
    rw [hp] at ha
    cases ha

theorem Gives.unique {o o' : Except Error Outcome} (h : c.Gives id o) (h' : c.Gives id o') :
    o = o' := by
  have he := List.append_cancel_left (h.symm.trans h')
  simpa using he

structure Answered (c : Client) (t : Task) (a : Answer) : Prop where
  orderly : Orderly c
  task : ∃ u ∈ c.tasks, u.id = t.id ∧ u.purpose = t.purpose ∧ u.work = t.work ∧ u.answer = some a
  out : t.id ∉ c.waiters.pending.map Prod.snd

theorem Orderly.answered_receive (h : Orderly c) {f : Frame} (ht : t ∈ c.tasks)
    (hg : c.waiters.get? f.token = some t.id) : Answered (c.receive f) t f.answer where
  orderly := h.receive f
  task := by
    refine ⟨{ t with answer := some f.answer }, ?_, rfl, rfl, rfl, rfl⟩
    simp only [Client.receive, Waiters.dispatch_of_get? hg]
    exact List.mem_map.mpr ⟨t, ht, by simp⟩
  out := by
    intro hm
    obtain ⟨p, hp, hpi⟩ := List.mem_map.mp hm
    have hpt := eq_of_nodup_map h.requests_nodup ((pending_receive c f).subset hp)
      (mem_of_lookup_eq_some hg) hpi
    rw [waiters_receive, Waiters.dispatch_of_get? hg, hpt] at hp
    simpa using (List.mem_filter.mp hp).2

theorem Answered.step (h : Answered c t a) {e : Event} (hc : e ≠ .cancel t.id)
    (hr : e ≠ .resume t.id) : Answered (c.step e) t a where
  orderly := h.orderly.step e
  task := by
    obtain ⟨u, hu, hi, hp, hw, hn⟩ := h.task
    obtain ⟨v, hv, hm⟩ := h.orderly.kept_step hu (hi ▸ hc) (hi ▸ hr)
    refine ⟨v, hv, hm.id_eq.trans hi, hm.purpose_eq.trans hp, hm.work_eq.trans hw, ?_⟩
    -- a call that is out of the table is not answered again
    cases hm with
    | answered f hg =>
      exact absurd (List.mem_map.mpr ⟨_, mem_of_lookup_eq_some hg, hi⟩) h.out
    | ended _ hm => exact absurd (hi ▸ hm) h.out
    | _ => exact hn
  out := by
    intro hm
    obtain ⟨p, hp, hpi⟩ := List.mem_map.mp hm
    rcases entered_step hp with hp | he
    · exact h.out (List.mem_map.mpr ⟨p, hp, hpi⟩)
    · obtain ⟨u, hu, hi, -⟩ := h.task
      have hlt := h.orderly.begun u hu
      rw [hi, ← hpi] at hlt
      rw [← hpi] at hr
      generalize p.2 = i at he hlt hr
      cases he with
      | begins call => exact absurd hlt (Nat.lt_irrefl _)
      | resumes => exact hr rfl

theorem Answered.after (h : Answered c t a) {events : List Event}
    (kept : ∀ e ∈ events, e ≠ .cancel t.id ∧ e ≠ .resume t.id) :
    Answered (c.after events) t a := by
  induction events generalizing c with
  | nil => exact h
  | cons e r ih =>
    obtain ⟨hc, hr⟩ := kept e List.mem_cons_self
    exact ih (h.step hc hr) fun e he => kept e (List.mem_cons_of_mem _ he)

theorem Lined.written_after (h : Lined c) (ht : t ∈ c.tasks) (hp : t.phase = .written)
    {events : List Event} (kept : ∀ e ∈ events, e ≠ .cancel t.id ∧ e ≠ .resume t.id) :
    ∃ u ∈ (c.after events).tasks, u.id = t.id ∧ u.phase = .written := by
  induction events generalizing c t with
  | nil => exact ⟨t, ht, rfl, hp⟩
  | cons e r ih =>
    obtain ⟨hc, hr⟩ := kept e List.mem_cons_self
    obtain ⟨u, hu, hm⟩ := h.orderly.kept_step ht hc hr
    have hpu : u.phase = .written := by
      rw [h.phase_marked ht hm (by simp [hp]) (by simp [hp]), hp]
    rw [← hm.id_eq] at kept ⊢
    exact ih (h.step e) hu hpu fun e he => kept e (List.mem_cons_of_mem _ he)

end Client

end ReqlDriver
