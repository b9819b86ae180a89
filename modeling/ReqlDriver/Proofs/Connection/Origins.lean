import ReqlDriver.Proofs.Connection.Reachable
import ReqlDriver.Proofs.Connection.Turns

namespace ReqlDriver

inductive Suits : Purpose → Work → Prop
  | run {token : UInt64} {q : Term} {o : Options} {db : Option String} : o.noreply = false →
      Suits .run (.frame (Frame.start token q (o.entries db)))
  | silent {token : UInt64} {q : Term} {o : Options} {db : Option String} : o.noreply = true →
      Suits .silent (.frame (Frame.start token q (o.entries db)))
  | noreplyWait {token : UInt64} : Suits .noreplyWait (.frame (Frame.control token .noreplyWait))
  | serverInfo {token : UInt64} : Suits .serverInfo (.frame (Frame.control token .serverInfo))
  | next {k : Cursor} : k.exhausted = false →
      Suits (.next k) (.frame (Frame.control k.token .fetch))
  | collect {k : Cursor} {rows : List Datum} : k.exhausted = false →
      Suits (.collect k rows) (.frame (Frame.control k.token .fetch))
  | stop {k : Cursor} : k.exhausted = true → k.buffer = [] →
      Suits (.stop k) (.frame (Frame.control k.token .stop))
  | abandon {token : UInt64} : Suits .abandon (.frame (Frame.control token .stop))
  | close : Suits .close .shutdown

def Task.Apt (t : Task) : Prop := Suits t.purpose t.work

structure Task.Fresh (t : Task) (id : Nat) : Prop where
  apt : t.Apt
  id : t.id = id
  phase : t.phase = .unsent
  answer : t.answer = none

namespace Client

variable {c : Client} {e : Event} {k : Cursor} {t u : Task} {h : Holder} {o : Option Holder}

theorem Marked.id_eq (h : Marked c e t u) : u.id = t.id := by
  cases h <;> rfl

theorem Marked.purpose_eq (h : Marked c e t u) : u.purpose = t.purpose := by
  cases h <;> rfl

theorem Marked.work_eq (h : Marked c e t u) : u.work = t.work := by
  cases h <;> rfl

theorem Marked.apt (h : Marked c e t u) (ht : t.Apt) : u.Apt := by
  unfold Task.Apt
  rw [h.purpose_eq, h.work_eq]
  exact ht

theorem Begins.fresh (h : Begins c e t) : t.Fresh c.begun := by
  cases h with
  | run hc ho => exact ⟨.run ho, rfl, rfl, rfl⟩
  | silent hc ho => exact ⟨.silent ho, rfl, rfl, rfl⟩
  | noreplyWait => exact ⟨.noreplyWait, rfl, rfl, rfl⟩
  | serverInfo => exact ⟨.serverInfo, rfl, rfl, rfl⟩
  | close => exact ⟨.close, rfl, rfl, rfl⟩

theorem Advanced.fresh {closed : Bool} {id : Nat} (hj : Advanced closed id k h)
    (hu : h = .task u) : u.Fresh id := by
  cases hj with
  | row => cases hu
  | ended => cases hu
  | refused => cases hu
  | asked hb he =>
    obtain rfl := Holder.task.inj hu
    exact ⟨.next he, rfl, rfl, rfl⟩

theorem Gathered.fresh {closed : Bool} {id : Nat} {rows : List Datum}
    (ho : Gathered closed id k rows o) (hu : o = some (.task u)) : u.Fresh id := by
  cases ho with
  | ended => cases hu
  | refused => cases hu
  | asked he =>
    obtain rfl := Holder.task.inj (Option.some.inj hu)
    exact ⟨.collect he, rfl, rfl, rfl⟩

theorem remains_ne_task : k.remains ≠ some (.task u) := by
  unfold Cursor.remains
  split <;> simp

theorem leaves_ne_task {p : Purpose} : p.leaves ≠ some (.task u) := by
  unfold Purpose.leaves
  split
  · simp
  · simp
  · exact remains_ne_task
  · simp

theorem Passes.fresh (hp : Passes c e h o) (hu : o = some (.task u)) :
    u.Fresh c.begun ∨ ∃ t, h = .task t ∧ t.phase = .written ∧ u.Fresh t.id := by
  cases hp with
  | next hj => exact .inl (hj.fresh (Option.some.inj hu))
  | collect hg => exact .inl (hg.fresh hu)
  | stopped => cases hu
  | stop he hc =>
    obtain rfl := Holder.task.inj (Option.some.inj hu)
    exact .inl ⟨.stop rfl rfl, rfl, rfl, rfl⟩
  | drop => exact absurd hu remains_ne_task
  | forget => cases hu
  | tell hc =>
    obtain rfl := Holder.task.inj (Option.some.inj hu)
    exact .inl ⟨.abandon, rfl, rfl, rfl⟩
  | cancel => exact absurd hu leaves_ne_task
  | refuse => exact absurd hu leaves_ne_task
  | complete => exact absurd hu leaves_ne_task
  | conclude hp _ _ hc =>
    cases hc with
    | started => cases hu
    | ended => cases hu
    | failedNext => cases hu
    | next _ _ hj => exact .inr ⟨_, rfl, hp, hj.fresh (Option.some.inj hu)⟩
    | failedCollect => exact absurd hu remains_ne_task
    | collect _ _ hg => exact .inr ⟨_, rfl, hp, hg.fresh hu⟩

theorem Passes.enqueues (hp : Passes c e h o) : e.enqueues = false := by
  cases hp <;> rfl

theorem Turn.source (ht : Turn c e) (hu : u ∈ (c.step e).tasks) :
    (∃ t ∈ c.tasks, Marked c e t u) ∨ Begins c e u ∨
      ∃ h ∈ c.holders, Passes c e h (some (.task u)) := by
  have hm := task_mem_holders.mpr hu
  cases ht with
  | stays f begins hf hb hs =>
    rw [hs] at hm
    rcases Multiset.mem_add.mp hm with hm | hm
    · have hu : u ∈ begins := by simpa using hm
      exact .inr (.inl (hb u hu))
    · obtain ⟨h, hh, he⟩ := Multiset.mem_map.mp hm
      cases h with
      | task t =>
        obtain rfl := Holder.task.inj he
        have ht := task_mem_holders.mp hh
        exact .inl ⟨t, ht, hf t ht⟩
      | cursor k => cases he
      | dropped token => cases he
  | passes hp hc hs =>
    rename_i h o rest
    rw [hs] at hm
    rcases Multiset.mem_add.mp hm with hm | hm
    · obtain rfl : o = some (.task u) := by simpa using hm
      exact .inr (.inr ⟨h, hc ▸ Multiset.mem_cons_self _ _, hp⟩)
    · have ht : u ∈ c.tasks := task_mem_holders.mp (hc ▸ Multiset.mem_cons_of_mem hm)
      exact .inl ⟨u, ht, .other hp.enqueues u⟩

theorem Turn.origin (ht : Turn c e) (hu : u ∈ (c.step e).tasks) :
    (∃ t ∈ c.tasks, Marked c e t u) ∨ u.Fresh c.begun ∨
      ∃ t ∈ c.tasks, t.phase = .written ∧ u.Fresh t.id := by
  rcases ht.source hu with hm | hb | ⟨h, hh, hp⟩
  · exact .inl hm
  · exact .inr (.inl hb.fresh)
  · rcases hp.fresh rfl with hu | ⟨t, rfl, hw, hu⟩
    · exact .inr (.inl hu)
    · exact .inr (.inr ⟨t, task_mem_holders.mp hh, hw, hu⟩)

end Client

end ReqlDriver
