import ReqlDriver.Proofs.Connection.Steps

namespace ReqlDriver.Client

structure Ready (c : Client) (id : Nat) (token : UInt64) : Prop where
  free : ∀ t ∈ c.tasks, t.id ≠ id
  unused : token ∉ c.waiters.pending.map (·.1)
  opened : c.closed = false
  shut : c.shut = false
  queue : c.queue = []

def sent (c : Client) (f : Frame) : Client := { c with written := c.written ++ [f] }

variable {c : Client} {t : Task} {id : Nat}

theorem task?_eq_none (free : ∀ u ∈ c.tasks, u.id ≠ id) : c.task? id = none := by
  apply List.find?_eq_none.mpr
  intro u hu
  simpa using free u hu

theorem task?_spawn (free : ∀ u ∈ c.tasks, u.id ≠ t.id) : (c.spawn t).task? t.id = some t := by
  have hn : c.tasks.find? (fun u => u.id == t.id) = none := task?_eq_none free
  simp [Client.task?, Client.spawn, List.find?_append, hn]

theorem updateTask_spawn (free : ∀ u ∈ c.tasks, u.id ≠ t.id) (g : Task → Task) :
    (c.spawn t).updateTask t.id g = c.spawn (g t) := by
  have hm : c.tasks.map (fun u => if u.id = t.id then g u else u) = c.tasks := by
    conv => rhs; rw [← List.map_id c.tasks]
    apply List.map_congr_left
    intro u hu
    simp [free u hu]
  simp [Client.updateTask, Client.spawn, hm]

theorem remove_of_not_mem {w : Waiters} {token : UInt64} (h : token ∉ w.pending.map (·.1)) :
    w.remove token = w := by
  have hf : w.pending.filter (fun p => p.1 != token) = w.pending := by
    apply List.filter_eq_self.mpr
    intro p hp
    have hne : p.1 ≠ token := fun he => h (he ▸ List.mem_map_of_mem hp)
    simpa using hne
  simp [Waiters.remove, hf]

theorem remove_cons {w : Waiters} {token : UInt64} (h : token ∉ w.pending.map (·.1)) :
    Waiters.remove { w with pending := (token, id) :: w.pending } token = w := by
  have hr := remove_of_not_mem h
  simpa [Waiters.remove] using hr

theorem dismiss_spawn (free : ∀ u ∈ c.tasks, u.id ≠ t.id) {f : Frame} (hf : t.work = .frame f)
    (ha : t.purpose.awaits = true) (unused : f.token ∉ c.waiters.pending.map (·.1)) :
    (c.spawn t).dismiss t = c := by
  have ht : (c.tasks ++ [t]).filter (fun u => u.id != t.id) = c.tasks := by
    have hs : c.tasks.filter (fun u => u.id != t.id) = c.tasks := by
      apply List.filter_eq_self.mpr
      intro u hu
      simpa using free u hu
    simp [List.filter_append, hs]
  have hw := remove_of_not_mem unused
  simp [Client.dismiss, Client.spawn, ha, hf, ht, hw]

def entered (c : Client) (t : Task) (token : UInt64) : Client :=
  { c with waiters := { c.waiters with pending := (token, t.id) :: c.waiters.pending } }.spawn t

theorem receive_entered {g : Frame} (free : ∀ u ∈ c.tasks, u.id ≠ t.id)
    (unused : g.token ∉ c.waiters.pending.map (·.1)) :
    (c.entered t g.token).receive g = c.spawn { t with answer := some g.answer } := by
  have hd : (c.entered t g.token).waiters.dispatch g = ([(t.id, g.answer)], c.waiters) := by
    have hr : Waiters.remove { c.waiters with
        pending := (g.token, t.id) :: c.waiters.pending } g.token = c.waiters :=
      remove_cons unused
    simp [Waiters.dispatch, Waiters.get?, entered, Client.spawn, hr]
  unfold Client.receive
  rw [hd]
  exact updateTask_spawn free fun u => { u with answer := some g.answer }

theorem resume_spawn {f : Frame} {a : Answer} (h : Ready c t.id f.token)
    (hw : t.work = .frame f) (hp : t.phase = .written) (ha : t.purpose.awaits = true)
    (hn : t.answer = some a) : (c.spawn t).resume t.id = c.proceed t.id t.purpose f.token a := by
  have hs := task?_spawn h.free
  have hd := dismiss_spawn h.free hw ha h.unused
  simp only [Client.resume, hs, hp, ha, hw, hn, Client.conclude, hd]

end ReqlDriver.Client
