import ReqlDriver.Datum.Wire

namespace ReqlDriver.Datum

@[elab_as_elim]
theorem induct {motive : Datum → Prop} (null : motive null)
    (boolean : ∀ b, motive (boolean b)) (number : ∀ x, motive (number x))
    (string : ∀ s, motive (string s))
    (array : ∀ items, (∀ d ∈ items, motive d) → motive (array items))
    (object : ∀ fields, (∀ f ∈ fields, motive f.2) → motive (object fields))
    (time : ∀ t, motive (time t)) (binary : ∀ bytes, motive (binary bytes))
    (grouped : ∀ groups, (∀ p ∈ groups, motive p.1 ∧ motive p.2) → motive (grouped groups))
    (d : Datum) : motive d := by
  apply @Datum.rec motive (fun items => ∀ d ∈ items, motive d)
    (fun fields => ∀ f ∈ fields, motive f.2)
    (fun groups => ∀ p ∈ groups, motive p.1 ∧ motive p.2)
    (fun f => motive f.2) (fun p => motive p.1 ∧ motive p.2)
    null boolean number string array object time binary grouped
  · exact List.forall_mem_nil _
  · exact fun _ _ h hr => List.forall_mem_cons.mpr ⟨h, hr⟩
  · exact List.forall_mem_nil _
  · exact fun _ _ h hr => List.forall_mem_cons.mpr ⟨h, hr⟩
  · exact List.forall_mem_nil _
  · exact fun _ _ h hr => List.forall_mem_cons.mpr ⟨h, hr⟩
  · exact fun _ _ h => h
  · exact fun _ _ hg hd => ⟨hg, hd⟩

inductive Part : Datum → Datum → Prop
  | self (d : Datum) : Part d d
  | item {d e : Datum} {items : List Datum} : d ∈ items → Part e d → Part e (array items)
  | field {f : String × Datum} {e : Datum} {fields : List (String × Datum)} :
      f ∈ fields → Part e f.2 → Part e (object fields)
  | group {p : Datum × Datum} {e : Datum} {groups : List (Datum × Datum)} :
      p ∈ groups → Part e p.1 → Part e (grouped groups)
  | reduction {p : Datum × Datum} {e : Datum} {groups : List (Datum × Datum)} :
      p ∈ groups → Part e p.2 → Part e (grouped groups)

section

variable {P : Datum → Prop}

theorem forall_part_leaf {d : Datum} (h : ∀ e, Part e d → e = d) :
    (∀ e, Part e d → P e) ↔ P d :=
  ⟨fun hp => hp d (.self d), fun hd e he => h e he ▸ hd⟩

theorem forall_part_array {items : List Datum} :
    (∀ e, Part e (array items) → P e) ↔
      P (array items) ∧ ∀ d ∈ items, ∀ e, Part e d → P e := by
  constructor
  · exact fun h => ⟨h _ (.self _), fun d hd e he => h e (.item hd he)⟩
  · rintro ⟨h, hi⟩ e he
    cases he with
    | self => exact h
    | item hd he => exact hi _ hd e he

theorem forall_part_object {fields : List (String × Datum)} :
    (∀ e, Part e (object fields) → P e) ↔
      P (object fields) ∧ ∀ f ∈ fields, ∀ e, Part e f.2 → P e := by
  constructor
  · exact fun h => ⟨h _ (.self _), fun f hf e he => h e (.field hf he)⟩
  · rintro ⟨h, hi⟩ e he
    cases he with
    | self => exact h
    | field hf he => exact hi _ hf e he

theorem forall_part_grouped {groups : List (Datum × Datum)} :
    (∀ e, Part e (grouped groups) → P e) ↔ P (grouped groups) ∧
      ∀ p ∈ groups, (∀ e, Part e p.1 → P e) ∧ ∀ e, Part e p.2 → P e := by
  constructor
  · exact fun h => ⟨h _ (.self _), fun p hp =>
      ⟨fun e he => h e (.group hp he), fun e he => h e (.reduction hp he)⟩⟩
  · rintro ⟨h, hi⟩ e he
    cases he with
    | self => exact h
    | group hp he => exact (hi _ hp).1 e he
    | reduction hp he => exact (hi _ hp).2 e he

end

theorem itemsJson_eq_map (items : List Datum) : itemsJson items = items.map toJson := by
  induction items with
  | nil => rfl
  | cons d r ih => rw [itemsJson, ih, List.map_cons]

theorem fieldsJson_eq_mapValues (fields : List (String × Datum)) :
    fieldsJson fields = Entries.mapValues toJson fields := by
  induction fields with
  | nil => rfl
  | cons f r ih => rw [fieldsJson, ih, Entries.mapValues, Entries.mapValues, List.map_cons]

theorem groupsJson_eq_map (groups : List (Datum × Datum)) :
    groupsJson groups = groups.map fun p => .array [p.1.toJson, p.2.toJson] := by
  induction groups with
  | nil => rfl
  | cons p r ih => rw [groupsJson, ih, List.map_cons]

theorem ofItems_eq_map (items : List Json) : ofItems items = items.map ofJson := by
  induction items with
  | nil => rfl
  | cons v r ih => rw [ofItems, ih, List.map_cons]

theorem ofEntries_eq_mapValues (entries : List (String × Json)) :
    ofEntries entries = Entries.mapValues ofJson entries := by
  induction entries with
  | nil => rfl
  | cons e r ih => rw [ofEntries, ih, Entries.mapValues, Entries.mapValues, List.map_cons]

section

variable (f : Datum → Datum)

theorem eqItems_map_iff (items : List Datum) :
    eqItems (items.map f) items = true ↔ ∀ d ∈ items, (f d).eq d = true := by
  induction items with
  | nil => simp [eqItems]
  | cons d r ih => simp [eqItems, ih]

theorem eqFields_mapValues_iff (fields : List (String × Datum)) :
    eqFields (Entries.mapValues f fields) fields = true ↔
      ∀ e ∈ fields, (f e.2).eq e.2 = true := by
  induction fields with
  | nil => simp [Entries.mapValues, eqFields]
  | cons e r ih =>
    obtain ⟨key, d⟩ := e
    rw [List.forall_mem_cons, ← ih]
    simp [Entries.mapValues, eqFields]

theorem eqGroups_map_iff (groups : List (Datum × Datum)) :
    eqGroups (groups.map fun p => (f p.1, f p.2)) groups = true ↔
      ∀ p ∈ groups, (f p.1).eq p.1 = true ∧ (f p.2).eq p.2 = true := by
  induction groups with
  | nil => simp [eqGroups]
  | cons p r ih =>
    obtain ⟨g, d⟩ := p
    rw [List.forall_mem_cons, ← ih]
    simp [eqGroups]

end

end ReqlDriver.Datum
