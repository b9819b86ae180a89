import ReqlDriver.Proofs.Query.WireForm

namespace ReqlDriver.Term

@[elab_as_elim]
theorem induct {motive : Term → Prop}
    (node : ∀ op args options literal, (∀ t ∈ args, motive t) → (∀ o ∈ options, motive o.2) →
      motive (node op args options literal))
    (t : Term) : motive t := by
  apply @Term.rec motive (fun args => ∀ t ∈ args, motive t)
    (fun options => ∀ o ∈ options, motive o.2) (fun o => motive o.2) node
  · exact List.forall_mem_nil _
  · exact fun _ _ h hr => List.forall_mem_cons.mpr ⟨h, hr⟩
  · exact List.forall_mem_nil _
  · exact fun _ _ h hr => List.forall_mem_cons.mpr ⟨h, hr⟩
  · exact fun _ _ h => h

inductive Within : Term → Term → Prop
  | self (t : Term) : Within t t
  | arg {u t : Term} {op : Opcode} {args : List Term} {options : List (String × Term)}
      {literal : Option Datum} : t ∈ args → Within u t → Within u (node op args options literal)
  | option {u : Term} {o : String × Term} {op : Opcode} {args : List Term}
      {options : List (String × Term)} {literal : Option Datum} : o ∈ options → Within u o.2 →
      Within u (node op args options literal)

theorem forall_within_node {P : Term → Prop} {op : Opcode} {args : List Term}
    {options : List (String × Term)} {literal : Option Datum} :
    (∀ u, Within u (node op args options literal) → P u) ↔ P (node op args options literal) ∧
      (∀ t ∈ args, ∀ u, Within u t → P u) ∧ ∀ o ∈ options, ∀ u, Within u o.2 → P u := by
  constructor
  · exact fun h => ⟨h _ (.self _), fun t ht u hu => h u (.arg ht hu),
      fun o ho u hu => h u (.option ho hu)⟩
  · rintro ⟨h, ha, ho⟩ u hu
    cases hu with
    | self => exact h
    | arg ht hu => exact ha _ ht u hu
    | option hm hu => exact ho _ hm u hu

theorem forall_within_datum {P : Term → Prop} {d : Datum} :
    (∀ u, Within u (datum d) → P u) ↔ P (datum d) := by
  rw [datum, forall_within_node]
  simp

theorem markItems_eq_map (items : List Json) : markItems items = items.map markArrays := by
  induction items with
  | nil => rfl
  | cons v r ih => rw [markItems, ih, List.map_cons]

theorem markEntries_eq_mapValues (entries : List (String × Json)) :
    markEntries entries = Entries.mapValues markArrays entries := by
  induction entries with
  | nil => rfl
  | cons e r ih => rw [markEntries, ih, Entries.mapValues, Entries.mapValues, List.map_cons]

theorem markArrays_array (items : List Json) : markArrays (.array items) =
    .array [.int Opcode.makeArray.code, .array (items.map markArrays)] := by
  rw [markArrays, markItems_eq_map]

theorem markArrays_object (entries : List (String × Json)) :
    markArrays (.object entries) = .object (Entries.mapValues markArrays entries) := by
  rw [markArrays, markEntries_eq_mapValues]

section

variable {ε α β : Type} {x : Except ε α} {b : β}

theorem bind_eq_ok_iff {f : α → Except ε β} : x.bind f = .ok b ↔ ∃ a, x = .ok a ∧ f a = .ok b := by
  cases x <;> simp [Except.bind]

theorem map_eq_ok_iff {f : α → β} : x.map f = .ok b ↔ ∃ a, x = .ok a ∧ f a = b := by
  cases x <;> simp [Except.map]

end

theorem exists_ofJson_of_ofItems {items : List Json} {ts : List Term}
    (h : ofItems items = .ok ts) : ∀ t ∈ ts, ∃ v, ofJson v = .ok t := by
  induction items generalizing ts with
  | nil =>
    cases h
    exact List.forall_mem_nil _
  | cons v r ih =>
    obtain ⟨u, hu, us, hus, rfl⟩ := by simpa [ofItems, bind_eq_ok_iff, map_eq_ok_iff] using h
    exact List.forall_mem_cons.mpr ⟨⟨v, hu⟩, ih hus⟩

theorem exists_ofJson_of_ofEntries {entries : List (String × Json)} {ts : List (String × Term)}
    (h : ofEntries entries = .ok ts) : ∀ o ∈ ts, ∃ v, ofJson v = .ok o.2 := by
  induction entries generalizing ts with
  | nil =>
    cases h
    exact List.forall_mem_nil _
  | cons e r ih =>
    obtain ⟨u, hu, us, hus, rfl⟩ := by simpa [ofEntries, bind_eq_ok_iff, map_eq_ok_iff] using h
    exact List.forall_mem_cons.mpr ⟨⟨e.2, hu⟩, ih hus⟩

theorem exists_ofJson_of_ofOptions {op : Opcode} {rest : List Json} {ts : List (String × Term)}
    (h : ofOptions op rest = .ok ts) : ∀ o ∈ ts, ∃ v, ofJson v = .ok o.2 := by
  cases rest with
  | nil =>
    cases h
    exact List.forall_mem_nil _
  | cons v r =>
    cases v with
    | object entries => exact exists_ofJson_of_ofEntries h
    | _ => cases h

theorem ofArguments_eq_ok {op : Opcode} {rest : List Json} {t : Term}
    (h : ofArguments op rest = .ok t) : t.op = op ∧ t.literal? = none ∧
      (∀ u ∈ t.args, ∃ v, ofJson v = .ok u) ∧ ∀ o ∈ t.options, ∃ v, ofJson v = .ok o.2 := by
  cases rest with
  | nil =>
    cases h
    exact ⟨rfl, rfl, List.forall_mem_nil _, List.forall_mem_nil _⟩
  | cons v r =>
    cases v with
    | array items =>
      simp only [ofArguments, bind_eq_ok_iff, map_eq_ok_iff] at h
      obtain ⟨args, ha, options, ho, rfl⟩ := h
      exact ⟨rfl, rfl, exists_ofJson_of_ofItems ha, exists_ofJson_of_ofOptions ho⟩
    | _ => cases h

theorem ofJson_eq_ok {v : Json} {t : Term} (h : ofJson v = .ok t) :
    (∃ w, t = datum (Datum.ofJson w)) ∨ t.op ≠ .datum ∧ t.literal? = none ∧
      (∀ u ∈ t.args, ∃ w, ofJson w = .ok u) ∧ ∀ o ∈ t.options, ∃ w, ofJson w = .ok o.2 := by
  cases v with
  | array items =>
    cases items with
    | nil => cases h
    | cons head rest =>
      obtain ⟨op, -, h⟩ := bind_eq_ok_iff.mp h
      split at h
      · cases rest with
        | nil => cases h
        | cons w r => exact .inl ⟨w, (Except.ok.inj h).symm⟩
      · rename_i hd
        obtain ⟨rfl, hl, ha, ho⟩ := ofArguments_eq_ok h
        exact .inr ⟨hd, hl, ha, ho⟩
  | object entries =>
    rw [ofJson] at h
    split at h
    · exact .inl ⟨_, (Except.ok.inj h).symm⟩
    · obtain ⟨options, ho, rfl⟩ := map_eq_ok_iff.mp h
      have hd : Opcode.makeObj ≠ .datum := by decide
      exact .inr ⟨hd, rfl, List.forall_mem_nil _, exists_ofJson_of_ofEntries ho⟩
  | _ => exact .inl ⟨_, (Except.ok.inj h).symm⟩

end ReqlDriver.Term
