import ReqlDriver.Proofs.Connection.Reachable

namespace ReqlDriver

namespace Waiters

theorem dispatch_of_not_mem {w : Waiters} {f : Frame} (h : f.token ∉ w.pending.map (·.1)) :
    w.dispatch f = ([], w) := by
  have hl : w.get? f.token = none := lookup_eq_none_iff_not_mem.mpr h
  simp only [dispatch, hl]

theorem dispatch_of_get? {w : Waiters} {f : Frame} {id : Nat} (h : w.get? f.token = some id) :
    w.dispatch f = ([(id, f.answer)], w.remove f.token) := by
  simp only [dispatch, h]

end Waiters

namespace Client

variable {c : Client}

def stream (frames : List Frame) : List Event := frames.map .receive ++ [.endOfStream]

theorem waiters_answerAll (c : Client) (answers : List (Nat × Answer)) :
    (c.answerAll answers).waiters = c.waiters := by
  induction answers generalizing c with
  | nil => rfl
  | cons a r ih => exact ih _

theorem Orderly.requests_nodup (h : Orderly c) : (c.waiters.pending.map (·.2)).Nodup := by
  have ht := List.pairwise_map.mp h.tokens
  apply List.pairwise_map.mpr
  apply ht.imp_of_mem
  intro p q hp hq hne he
  obtain ⟨t, ht, hti, -, f, hf, hft⟩ := h.waiting p hp
  obtain ⟨u, hu, hui, -, g, hg, hgt⟩ := h.waiting q hq
  obtain rfl := eq_of_nodup_map h.ids ht hu (hti.trans (he.trans hui.symm))
  obtain rfl := Work.frame.inj (hf.symm.trans hg)
  exact hne (hft.symm.trans hgt)

end Client

end ReqlDriver
