namespace ReqlDriver

variable {α β : Type} {g : α → β} {xs : List α}

theorem eq_of_nodup_map (hn : (xs.map g).Nodup) {a b : α} (ha : a ∈ xs) (hb : b ∈ xs)
    (he : g a = g b) : a = b := by
  have hp := List.pairwise_map.mp hn
  have hr : xs.Pairwise fun a b => g a = g b → a = b := hp.imp fun hne he => absurd he hne
  have hf : xs.Pairwise (flip fun a b => g a = g b → a = b) :=
    hp.imp fun hne he => absurd he.symm hne
  exact hr.forall_of_forall_of_flip (fun _ _ _ => rfl) hf ha hb he

theorem filter_eq_singleton {p : α → Bool} {a : α} (hn : (xs.map g).Nodup) (ha : a ∈ xs)
    (hp : p a) (hq : ∀ b ∈ xs, p b → g b = g a) : xs.filter p = [a] := by
  induction xs with
  | nil => cases ha
  | cons b r ih =>
    obtain ⟨hb, hr⟩ := List.nodup_cons.mp hn
    have hq' := fun c hc => hq c (List.mem_cons_of_mem b hc)
    rcases List.mem_cons.mp ha with rfl | ha
    · have hnone : r.filter p = [] := by
        rw [List.filter_eq_nil_iff]
        intro c hc hpc
        exact hb (hq' c hc hpc ▸ List.mem_map_of_mem hc)
      rw [List.filter_cons_of_pos hp, hnone]
    · have hpb : ¬ p b := by
        intro hpb
        exact hb (hq b List.mem_cons_self hpb ▸ List.mem_map_of_mem ha)
      rw [List.filter_cons_of_neg hpb]
      exact ih hr ha hq'

theorem lookup_eq_none_iff_not_mem [BEq α] [LawfulBEq α] {entries : List (α × β)} {key : α} :
    entries.lookup key = none ↔ key ∉ entries.map (·.1) := by
  rw [List.lookup_eq_none_iff]
  constructor
  · intro h hm
    obtain ⟨e, he, rfl⟩ := List.mem_map.mp hm
    simpa using h e he
  · intro h e he
    have hne : key ≠ e.1 := fun heq => h (heq ▸ List.mem_map_of_mem he)
    simpa using hne

theorem mem_of_lookup_eq_some [BEq α] [LawfulBEq α] {entries : List (α × β)} {key : α} {b : β}
    (h : entries.lookup key = some b) : (key, b) ∈ entries := by
  obtain ⟨before, after, rfl, -⟩ := List.lookup_eq_some_iff.mp h
  simp

end ReqlDriver
