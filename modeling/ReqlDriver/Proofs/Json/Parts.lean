import ReqlDriver.Json.Basic

namespace ReqlDriver.Json

@[elab_as_elim]
theorem induct {motive : Json → Prop} (null : motive null) (bool : ∀ b, motive (bool b))
    (int : ∀ n, motive (int n)) (float : ∀ x, motive (float x))
    (string : ∀ s, motive (string s))
    (array : ∀ items, (∀ v ∈ items, motive v) → motive (array items))
    (object : ∀ entries, (∀ e ∈ entries, motive e.2) → motive (object entries))
    (v : Json) : motive v := by
  apply @Json.rec motive (fun items => ∀ v ∈ items, motive v)
    (fun entries => ∀ e ∈ entries, motive e.2) (fun e => motive e.2)
    null bool int float string array object
  · exact List.forall_mem_nil _
  · exact fun _ _ h hr => List.forall_mem_cons.mpr ⟨h, hr⟩
  · exact List.forall_mem_nil _
  · exact fun _ _ h hr => List.forall_mem_cons.mpr ⟨h, hr⟩
  · exact fun _ _ h => h

theorem sorted_array {items : List Json} :
    Sorted (array items) ↔ ∀ v ∈ items, Sorted v := by
  rw [Sorted]
  induction items with
  | nil => simp [SortedItems]
  | cons v r ih => rw [SortedItems, ih, List.forall_mem_cons]

theorem sorted_object {entries : List (String × Json)} :
    Sorted (object entries) ↔ Entries.Sorted entries ∧ ∀ e ∈ entries, Sorted e.2 := by
  rw [Sorted]
  refine and_congr Iff.rfl ?_
  induction entries with
  | nil => simp [SortedEntries]
  | cons e r ih => rw [SortedEntries, ih, List.forall_mem_cons]

end ReqlDriver.Json
