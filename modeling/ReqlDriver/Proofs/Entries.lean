import ReqlDriver.Entries
import ReqlDriver.Proofs.Keys

namespace ReqlDriver.Entries

variable {α β γ : Type}

@[simp]
theorem mapValues_cons (f : α → β) (e : String × α) (r : List (String × α)) :
    mapValues f (e :: r) = (e.1, f e.2) :: mapValues f r := rfl

theorem mapValues_mapValues (f : α → β) (g : β → γ) (es : List (String × α)) :
    mapValues g (mapValues f es) = mapValues (fun a => g (f a)) es := List.map_map

theorem mapValues_congr {f g : α → β} {es : List (String × α)} (h : ∀ e ∈ es, f e.2 = g e.2) :
    mapValues f es = mapValues g es :=
  List.map_congr_left fun e he => Prod.ext rfl (h e he)

theorem mapValues_inj {f g : α → β} {es : List (String × α)} :
    mapValues f es = mapValues g es ↔ ∀ e ∈ es, f e.2 = g e.2 := by
  rw [mapValues, mapValues, List.map_inj_left]
  exact forall₂_congr fun e _ => by simp

theorem contains_mapValues (f : α → β) (es : List (String × α)) (key : String) :
    contains (mapValues f es) key = contains es key := by
  induction es with
  | nil => rfl
  | cons e r ih =>
    obtain ⟨k, a⟩ := e
    simp only [contains, get?, mapValues, List.map_cons,
      List.lookup_cons] at ih ⊢
    cases key == k with
    | true => rfl
    | false => exact ih

theorem mapValues_insert (f : α → β) (key : String) (value : α) (es : List (String × α)) :
    mapValues f (insert key value es) = insert key (f value) (mapValues f es) := by
  induction es with
  | nil => rfl
  | cons e r ih =>
    simp only [insert, mapValues, List.map_cons] at ih ⊢
    split
    · rfl
    · split
      · rfl
      · simp [ih]

theorem mapValues_extend (f : α → β) (es added : List (String × α)) :
    mapValues f (extend es added) = extend (mapValues f es) (mapValues f added) := by
  induction added generalizing es with
  | nil => rfl
  | cons e r ih =>
    have h := ih (insert e.1 e.2 es)
    rw [mapValues_insert] at h
    exact h

theorem mem_of_mem_insert {key : String} {value : α} {es : List (String × α)} {e : String × α}
    (h : e ∈ insert key value es) : e = (key, value) ∨ e ∈ es := by
  induction es with
  | nil => simpa [insert] using h
  | cons a r ih =>
    simp only [insert] at h
    split at h
    · simpa using h
    · split at h
      · rcases List.mem_cons.mp h with h | h
        · exact .inl h
        · exact .inr (List.mem_cons_of_mem a h)
      · rcases List.mem_cons.mp h with rfl | h
        · exact .inr List.mem_cons_self
        · exact (ih h).imp_right (List.mem_cons_of_mem a)

theorem mem_of_mem_extend {es added : List (String × α)} {e : String × α}
    (h : e ∈ extend es added) : e ∈ es ∨ e ∈ added := by
  induction added generalizing es with
  | nil => exact .inl h
  | cons a r ih =>
    rcases ih h with h | h
    · rcases mem_of_mem_insert h with rfl | h
      · exact .inr List.mem_cons_self
      · exact .inl h
    · exact .inr (List.mem_cons_of_mem a h)

@[simp]
theorem get?_nil (key : String) : get? ([] : List (String × α)) key = none := rfl

theorem get?_cons (e : String × α) (r : List (String × α)) (key : String) :
    get? (e :: r) key = if key = e.1 then some e.2 else get? r key := by
  obtain ⟨k, a⟩ := e
  by_cases h : key = k
  · simp [get?, h]
  · have hb : (key == k) = false := beq_eq_false_iff_ne.mpr h
    simp [get?, List.lookup_cons, h, hb]

theorem get?_append (xs ys : List (String × α)) (key : String) :
    get? (xs ++ ys) key = (get? xs key).or (get? ys key) := List.lookup_append

theorem get?_mapValues (f : α → β) (es : List (String × α)) (key : String) :
    get? (mapValues f es) key = (get? es key).map f := by
  induction es with
  | nil => rfl
  | cons e r ih =>
    rw [mapValues, List.map_cons, get?_cons, get?_cons, ← mapValues, ih]
    split <;> rfl

theorem get?_mapValues_eq_some {f : α → β} {es : List (String × α)} {key : String} {b : β} :
    get? (mapValues f es) key = some b ↔ ∃ a, get? es key = some a ∧ f a = b := by
  rw [get?_mapValues, Option.map_eq_some_iff]

theorem get?_eq_none_of_lt {es : List (String × α)} {key : String} (h : ∀ e ∈ es, key < e.1) :
    get? es key = none := by
  rw [get?, lookup_eq_none_iff_not_mem]
  intro hm
  obtain ⟨e, he, rfl⟩ := List.mem_map.mp hm
  exact String.lt_irrefl _ (h e he)

theorem not_lt_of_get?_eq {e f : String × α} {es fs : List (String × α)} (hf : Sorted (f :: fs))
    (h : ∀ key, get? (e :: es) key = get? (f :: fs) key) : ¬ e.1 < f.1 := by
  intro hlt
  have hfs := (List.pairwise_cons.mp hf).1
  have hn : get? (f :: fs) e.1 = none := get?_eq_none_of_lt
    (List.forall_mem_cons.mpr ⟨hlt, fun g hg => String.lt_trans hlt (hfs g hg)⟩)
  rw [← h e.1, get?_cons, if_pos rfl] at hn
  cases hn

theorem eq_of_get?_eq {es fs : List (String × α)} (he : Sorted es) (hf : Sorted fs)
    (h : ∀ key, get? es key = get? fs key) : es = fs := by
  induction es generalizing fs with
  | nil =>
    cases fs with
    | nil => rfl
    | cons f fs => simpa [get?_cons] using (h f.1).symm
  | cons e es ih =>
    cases fs with
    | nil => simpa [get?_cons] using h e.1
    | cons f fs =>
      have hk : e.1 = f.1 := String.le_antisymm
        (String.not_lt.mp (not_lt_of_get?_eq he fun key => (h key).symm))
        (String.not_lt.mp (not_lt_of_get?_eq hf h))
      have hv : e.2 = f.2 := by simpa [get?_cons, hk] using h e.1
      have hes := List.pairwise_cons.mp he
      have hfs := List.pairwise_cons.mp hf
      rw [Prod.ext hk hv, ih hes.2 hfs.2]
      intro key
      by_cases hkey : key = e.1
      · rw [hkey, get?_eq_none_of_lt hes.1, hk, get?_eq_none_of_lt hfs.1]
      · have hkey' : ¬ key = f.1 := hk ▸ hkey
        simpa [get?_cons, hkey, hkey'] using h key

theorem get?_of_mem {es : List (String × α)} (h : Sorted es) {e : String × α} (he : e ∈ es) :
    get? es e.1 = some e.2 := by
  induction es with
  | nil => cases he
  | cons a r ih =>
    obtain ⟨ha, hr⟩ := List.pairwise_cons.mp h
    rcases List.mem_cons.mp he with rfl | he
    · rw [get?_cons, if_pos rfl]
    · have hne : e.1 ≠ a.1 := fun hk => String.lt_irrefl _ (hk ▸ ha e he)
      rw [get?_cons, if_neg hne, ih hr he]

theorem sorted_iff {es : List (String × α)} : Sorted es ↔ (keys es).Pairwise (· < ·) :=
  List.pairwise_map.symm

theorem sorted_mapValues {f : α → β} {es : List (String × α)} (h : Sorted es) :
    Sorted (mapValues f es) := List.pairwise_map.mpr h

theorem eq_of_keys {es fs : List (String × α)} (he : Sorted es) (hf : Sorted fs)
    (hk : keys es ⊆ keys fs) (h : ∀ f ∈ fs, get? es f.1 = some f.2) : es = fs := by
  apply eq_of_get?_eq he hf
  intro key
  by_cases hkey : key ∈ keys fs
  · obtain ⟨f, hm, rfl⟩ := List.mem_map.mp hkey
    rw [h f hm, get?_of_mem hf hm]
  · have hes : key ∉ keys es := fun hm => hkey (hk hm)
    rw [get?, get?, lookup_eq_none_iff_not_mem.mpr hes, lookup_eq_none_iff_not_mem.mpr hkey]

theorem insert_last {es : List (String × α)} {key : String} {value : α}
    (h : ∀ e ∈ es, e.1 < key) : insert key value es = es ++ [(key, value)] := by
  induction es with
  | nil => rfl
  | cons e r ih =>
    obtain ⟨he, hr⟩ := List.forall_mem_cons.mp h
    have hne : key ≠ e.1 := fun hk => String.lt_irrefl _ (hk ▸ he)
    rw [insert, if_neg (String.lt_asymm he), if_neg hne, ih hr, List.cons_append]

theorem extend_of_sorted {es added : List (String × α)} (h : Sorted (es ++ added)) :
    extend es added = es ++ added := by
  induction added generalizing es with
  | nil => simp [extend]
  | cons e r ih =>
    have hl : ∀ a ∈ es, a.1 < e.1 := fun a ha =>
      (List.pairwise_append.mp h).2.2 a ha e List.mem_cons_self
    rw [List.append_cons] at h ⊢
    rw [← ih h, extend, extend, List.foldl_cons, insert_last hl]

theorem ofList_of_sorted {es : List (String × α)} (h : Sorted es) : ofList es = es :=
  extend_of_sorted h

end ReqlDriver.Entries
