import ReqlDriver.Proofs.Connection.History

/-!
What may be said on one token: a query, then any number of requests for a batch, then maybe that it
is to stop; or a single request of another kind. While a token has a holder, its holder tells how
far that has come.
-/

namespace ReqlDriver

structure Frame.Brings (f : Frame) (token : UInt64) (type : ResponseType) : Prop where
  token : f.token = token
  answer : ∃ r, f.answer = .ok r ∧ r.type = type

def Asking (token : UInt64) (frames : List Frame) : Prop :=
  ∃ q o db n, Options.noreply o = false ∧ frames = Frame.start token q (o.entries db) ::
    List.replicate n (Frame.control token .fetch)

inductive Word (token : UInt64) : List Frame → Prop
  | unused : Word token []
  | silent {q : Term} {o : Options} {db : Option String} : o.noreply = true →
      Word token [Frame.start token q (o.entries db)]
  | asking {frames : List Frame} : Asking token frames → Word token frames
  | stopped {frames : List Frame} : Asking token frames →
      Word token (frames ++ [Frame.control token .stop])
  | noreplyWait : Word token [Frame.control token .noreplyWait]
  | serverInfo : Word token [Frame.control token .serverInfo]

def Purpose.Follows (token : UInt64) (batched : Prop) (base : List Frame) : Purpose → Prop
  | .run | .silent | .noreplyWait | .serverInfo => base = []
  | .next _ | .collect _ _ | .stop _ | .abandon => Asking token base ∧ batched
  | .close => True

def Task.Spoken (t : Task) (shut : Bool) (base said : List Frame) : Prop :=
  match t.phase with
  | .unsent => said = base
  | .queued | .written => said = base ++ t.work.frame?.toList
  | .refused => said = base ∧ shut = true ∨ said = base ++ t.work.frame?.toList

/-- What is known of a token: the frames for which tokens have been handed out, whether the sending
side has ended, what has been said on the token, and whether its query has had a batch. -/
structure Known where
  opened : List Frame
  shut : Bool
  said : List Frame
  batched : Prop

structure Task.Fits (t : Task) (token : UInt64) (s : Known) (base : List Frame) : Prop where
  follows : t.purpose.Follows token s.batched base
  spoken : t.Spoken s.shut base s.said
  first : base = [] → ∀ f, t.work = .frame f → f ∈ s.opened
  answered : t.purpose = .run → ∀ a k, t.answer = some a → a.result token = .ok (.cursor k) →
    s.batched

structure Cursor.Fits (k : Cursor) (token : UInt64) (s : Known) : Prop where
  word : Word token s.said
  underway : k.exhausted = false → Asking token s.said ∧ s.batched

def Holder.Fits (token : UInt64) (s : Known) : Holder → Prop
  | task t => ∃ base, t.Fits token s base
  | cursor k => k.Fits token s
  | dropped _ => Asking token s.said ∧ s.batched

theorem Asking.fetch {token : UInt64} {frames : List Frame} (h : Asking token frames) :
    Asking token (frames ++ [Frame.control token .fetch]) := by
  obtain ⟨q, o, db, n, ho, rfl⟩ := h
  exact ⟨q, o, db, n + 1, ho, by rw [List.replicate_succ', List.cons_append]⟩

theorem Asking.ne_nil {token : UInt64} {frames : List Frame} (h : Asking token frames) :
    frames ≠ [] := by
  obtain ⟨q, o, db, n, -, rfl⟩ := h
  simp

theorem asking_start {token : UInt64} {q : Term} {o : Options} {db : Option String}
    (ho : o.noreply = false) : Asking token [Frame.start token q (o.entries db)] :=
  ⟨q, o, db, 0, ho, rfl⟩

theorem Task.Spoken.eq_or {t : Task} {shut : Bool} {base said : List Frame}
    (h : t.Spoken shut base said) : said = base ∨ said = base ++ t.work.frame?.toList := by
  unfold Task.Spoken at h
  split at h
  · exact .inl h
  · exact .inr h
  · exact .inr h
  · exact h.imp_left And.left

open Client

def Client.Batches (token : UInt64) (c : Client) (e : Event) : Prop :=
  ∃ f t, e = .receive f ∧ f.Brings token .successPartial ∧ c.waiters.get? token = some t.id ∧
    t ∈ c.tasks ∧ t.purpose = .run

variable {t : Task} {j : Holder} {k : Cursor} {token : UInt64} {batched : Prop} {base : List Frame}
  {f : Frame} {s : Known} {o : Option Holder}

theorem word_of_follows (ht : t.Apt) (hf : t.work = .frame f) (hft : f.token = token)
    (hb : t.purpose.Follows token batched base) : Word token (base ++ [f]) := by
  obtain ⟨id, purpose, work⟩ := t
  subst hft
  cases ht with
  | close => cases hf
  | run ho =>
    obtain rfl := Work.frame.inj hf
    obtain rfl : base = [] := hb
    exact .asking (asking_start ho)
  | silent ho =>
    obtain rfl := Work.frame.inj hf
    obtain rfl : base = [] := hb
    exact .silent ho
  | noreplyWait =>
    obtain rfl := Work.frame.inj hf
    obtain rfl : base = [] := hb
    exact .noreplyWait
  | serverInfo =>
    obtain rfl := Work.frame.inj hf
    obtain rfl : base = [] := hb
    exact .serverInfo
  | next | collect =>
    obtain rfl := Work.frame.inj hf
    exact .asking hb.1.fetch
  | stop | abandon =>
    obtain rfl := Work.frame.inj hf
    exact .stopped hb.1

theorem word_base (ht : t.Apt) (hf : t.work = .frame f)
    (hb : t.purpose.Follows token batched base) : Word token base := by
  obtain ⟨id, purpose, work⟩ := t
  cases ht with
  | close => cases hf
  | run | silent | noreplyWait | serverInfo =>
    obtain rfl : base = [] := hb
    exact .unused
  | next | collect | stop | abandon => exact .asking hb.1

theorem Task.Fits.word (h : t.Fits token s base) (ht : t.Apt) (hf : t.work = .frame f)
    (hft : f.token = token) : Word token s.said := by
  rcases h.spoken.eq_or with hs | hs
  · rw [hs]
    exact word_base ht hf h.follows
  · rw [hs, hf]
    exact word_of_follows ht hf hft h.follows

theorem Cursor.Fits.of_underway (h : Asking token s.said ∧ s.batched) (k : Cursor) :
    k.Fits token s := ⟨.asking h.1, fun _ => h⟩

theorem Task.Fits.underway (h : t.Fits token s base) (ht : t.Apt) (hf : t.work = .frame f)
    (hft : f.token = token) (hp : t.purpose = .next k ∨ ∃ rows, t.purpose = .collect k rows) :
    Asking token s.said ∧ s.batched := by
  have hs := h.spoken.eq_or
  have hfollows := h.follows
  obtain ⟨id, purpose, work⟩ := t
  subst hft
  cases ht with
  | next | collect =>
    obtain rfl := Work.frame.inj hf
    rcases hs with hs | hs
    · rw [hs]
      exact hfollows
    · rw [hs]
      exact ⟨hfollows.1.fetch, hfollows.2⟩
  | run | silent | noreplyWait | serverInfo | stop | abandon | close => simp at hp

theorem Cursor.Fits.remains (h : k.Fits token s) (ho : k.remains = some j) :
    j.Fits token s := by
  unfold Cursor.remains at ho
  split at ho
  · cases ho
  · rename_i he
    obtain rfl := Option.some.inj ho
    exact h.underway (by simpa using he)

theorem fits_sending {id : Nat} {purpose : Purpose} (hf : purpose.Follows token s.batched s.said)
    (hn : s.said ≠ []) (hp : purpose ≠ .run) :
    (Holder.task (.sending id purpose f)).Fits token s :=
  ⟨s.said, hf, rfl, fun he => absurd he hn, fun hr => absurd hr hp⟩

theorem Cursor.Fits.advanced {closed : Bool} {id : Nat} (h : k.Fits token s)
    (hj : Advanced closed id k j) : j.Fits token s := by
  cases hj with
  | row => exact ⟨h.word, h.underway⟩
  | ended => exact h
  | refused => exact h
  | asked _ he => exact fits_sending (h.underway he) (h.underway he).1.ne_nil nofun

theorem Cursor.Fits.gathered {closed : Bool} {id : Nat} {rows : List Datum} (h : k.Fits token s)
    (hg : Gathered closed id k rows o) (ho : o = some j) : j.Fits token s := by
  cases hg with
  | ended => cases ho
  | refused he =>
    obtain rfl := Option.some.inj ho
    exact h.underway he
  | asked he =>
    obtain rfl := Option.some.inj ho
    exact fits_sending (h.underway he) (h.underway he).1.ne_nil nofun

theorem Task.Fits.leaves (h : t.Fits token s base) (ht : t.Apt) (hf : t.work = .frame f)
    (hft : f.token = token) (ho : t.purpose.leaves = some j) : j.Fits token s := by
  cases hp : t.purpose with
  | next k =>
    rw [hp] at ho
    obtain rfl := Option.some.inj ho
    exact Cursor.Fits.of_underway (h.underway ht hf hft (.inl hp)) k
  | collect k rows =>
    rw [hp] at ho
    have hk := Cursor.Fits.of_underway (h.underway ht hf hft (.inr ⟨_, hp⟩)) k
    exact hk.remains ho
  | stop k =>
    rw [hp] at ho
    obtain rfl := Option.some.inj ho
    refine ⟨h.word ht hf hft, ?_⟩
    intro he
    rw [(stop_spent ht hp).1] at he
    cases he
  | run | silent | noreplyWait | serverInfo | abandon | close =>
    rw [hp] at ho
    cases ho

theorem asking_of_run (ht : t.Apt) (hp : t.purpose = .run) (hf : t.work = .frame f) :
    Asking f.token [f] := by
  obtain ⟨id, purpose, work⟩ := t
  obtain rfl := hp
  cases ht with
  | run ho =>
    obtain rfl := Work.frame.inj hf
    exact asking_start ho

theorem Task.Fits.concluded {closed : Bool} {a : Answer} (h : t.Fits token s base) (ht : t.Apt)
    (hf : t.work = .frame f) (hft : f.token = token) (hw : t.phase = .written)
    (ha : t.answer = some a) (hc : Concluded closed t f a o) (ho : o = some j) :
    j.Fits token s := by
  subst hft
  cases hc with
  | started hp hr =>
    obtain rfl := Option.some.inj ho
    have hs := h.spoken
    have hb : base = [] := by
      have hb := h.follows
      rw [hp] at hb
      exact hb
    simp only [Task.Spoken, hw, hb, hf] at hs
    refine Cursor.Fits.of_underway ⟨?_, h.answered hp a _ ha hr⟩ _
    rw [hs]
    exact asking_of_run ht hp hf
  | ended => cases ho
  | failedNext hp hr =>
    obtain rfl := Option.some.inj ho
    exact Cursor.Fits.of_underway (h.underway ht hf rfl (.inl hp)) _
  | next hp hr hj =>
    obtain rfl := Option.some.inj ho
    exact (Cursor.Fits.of_underway (h.underway ht hf rfl (.inl hp)) _).advanced hj
  | failedCollect hp hr =>
    exact (Cursor.Fits.of_underway (h.underway ht hf rfl (.inr ⟨_, hp⟩)) _).remains ho
  | collect hp hr hg =>
    exact (Cursor.Fits.of_underway (h.underway ht hf rfl (.inr ⟨_, hp⟩)) _).gathered hg ho

variable {c : Client} {e : Event} {h : Holder} {u : Task}

theorem Holder.Fits.passes (hh : h.Fits token s) (hp : Passes c e h o)
    (ht : ∀ t, h = .task t → t.Apt) (htoken : h.token? = some token) (ho : o = some j) :
    j.Fits token s := by
  cases hp with
  | next hj =>
    obtain rfl := Option.some.inj ho
    exact Cursor.Fits.advanced hh hj
  | collect hg => exact Cursor.Fits.gathered hh hg ho
  | stopped =>
    obtain rfl := Option.some.inj ho
    exact ⟨Cursor.Fits.word hh, nofun⟩
  | stop he =>
    obtain rfl := Option.some.inj ho
    have hu := Cursor.Fits.underway hh he
    exact fits_sending hu hu.1.ne_nil nofun
  | drop => exact Cursor.Fits.remains hh ho
  | forget => cases ho
  | tell =>
    obtain rfl := Option.some.inj ho
    exact fits_sending hh hh.1.ne_nil nofun
  | cancel | refuse | complete =>
    obtain ⟨base, hh⟩ := hh
    obtain ⟨f, hf, hft⟩ := work_of_token htoken
    exact hh.leaves (ht _ rfl) hf hft ho
  | conclude hw hf ha hc =>
    obtain ⟨base, hh⟩ := hh
    obtain ⟨g, hg, hgt⟩ := work_of_token htoken
    obtain rfl := Work.frame.inj (hf.symm.trans hg)
    exact hh.concluded (ht _ rfl) hf hgt hw ha hc ho

end ReqlDriver
