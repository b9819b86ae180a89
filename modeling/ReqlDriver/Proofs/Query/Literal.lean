import ReqlDriver.Proofs.Datum.Special
import ReqlDriver.Proofs.Json.Parts
import ReqlDriver.Proofs.Query.Parts

namespace ReqlDriver

namespace Term

mutual

def ofValue : Json → Term
  | .array items => array (ofValues items)
  | .object entries =>
    if Entries.contains entries Datum.tagKey then
      datum (Datum.ofJson (markArrays (.object entries)))
    else node .makeObj [] (ofFields entries) none
  | v => datum (Datum.ofJson v)

def ofValues : List Json → List Term
  | [] => []
  | v :: r => ofValue v :: ofValues r

def ofFields : List (String × Json) → List (String × Term)
  | [] => []
  | (k, v) :: r => (k, ofValue v) :: ofFields r

end

theorem ofValues_eq_map (items : List Json) : ofValues items = items.map ofValue := by
  induction items with
  | nil => rfl
  | cons v r ih => rw [ofValues, ih, List.map_cons]

theorem ofFields_eq_mapValues (entries : List (String × Json)) :
    ofFields entries = Entries.mapValues ofValue entries := by
  induction entries with
  | nil => rfl
  | cons e r ih => rw [ofFields, ih, Entries.mapValues_cons]

theorem ofValue_array (items : List Json) :
    ofValue (.array items) = array (items.map ofValue) := by
  rw [ofValue, ofValues_eq_map]

theorem ofValue_tagged {entries : List (String × Json)}
    (h : Entries.contains entries Datum.tagKey = true) :
    ofValue (.object entries) = datum (Datum.ofJson (markArrays (.object entries))) := by
  rw [ofValue, if_pos h]

theorem ofValue_untagged {entries : List (String × Json)}
    (h : Entries.contains entries Datum.tagKey = false) :
    ofValue (.object entries) = node .makeObj [] (Entries.mapValues ofValue entries) none := by
  rw [ofValue, if_neg (by simp [h]), ofFields_eq_mapValues]

theorem ofJson_marked {items : List Json} {args : List Term} (h : ofItems items = .ok args) :
    ofJson (.array [.int Opcode.makeArray.code, .array items]) = .ok (array args) := by
  simp [ofJson, opcode_code, ofArguments, ofOptions, h, array, Except.bind, Except.map]

theorem ofJson_markArrays (v : Json) : ofJson (markArrays v) = .ok (ofValue v) := by
  induction v using Json.induct with
  | null => rfl
  | bool b => rfl
  | int n => rfl
  | float x => rfl
  | string s => rfl
  | array items ih =>
    rw [markArrays_array, ofValue_array]
    exact ofJson_marked (ofItems_map_of ih)
  | object entries ih =>
    have hm := markArrays_object entries
    have hk := Entries.contains_mapValues markArrays entries Datum.tagKey
    cases ht : Entries.contains entries Datum.tagKey with
    | true =>
      rw [ofValue_tagged ht, hm, ofJson, if_pos (hk.trans ht)]
    | false =>
      rw [ofValue_untagged ht, hm]
      exact ofJson_record (hk.trans ht) (ofEntries_mapValues_of ih)

theorem op_of_within_ofValue (v : Json) :
    ∀ u, Within u (ofValue v) → u.op ∈ [Opcode.datum, .makeArray, .makeObj] := by
  have hd (d : Datum) : ∀ u, Within u (datum d) → u.op ∈ [Opcode.datum, .makeArray, .makeObj] :=
    forall_within_datum.mpr List.mem_cons_self
  induction v using Json.induct with
  | array items ih =>
    rw [ofValue_array, array, forall_within_node, List.forall_mem_map]
    exact ⟨by simp [op], ih, List.forall_mem_nil _⟩
  | object entries ih =>
    cases ht : Entries.contains entries Datum.tagKey with
    | true =>
      rw [ofValue_tagged ht]
      exact hd _
    | false =>
      rw [ofValue_untagged ht, forall_within_node]
      exact ⟨by simp [op], List.forall_mem_nil _, List.forall_mem_map.mpr ih⟩
  | _ => exact hd _

mutual

/-- The term that containers of the same values make: an array of terms for each array, a record
for each object, and a leaf for everything else. -/
def lift : Datum → Term
  | .array items => array (liftItems items)
  | .object fields => record (liftFields fields)
  | d => datum d

def liftItems : List Datum → List Term
  | [] => []
  | d :: r => lift d :: liftItems r

def liftFields : List (String × Datum) → List (String × Term)
  | [] => []
  | (k, d) :: r => (k, lift d) :: liftFields r

end

theorem liftItems_eq_map (items : List Datum) : liftItems items = items.map lift := by
  induction items with
  | nil => rfl
  | cons d r ih => rw [liftItems, ih, List.map_cons]

theorem liftFields_eq_mapValues (fields : List (String × Datum)) :
    liftFields fields = Entries.mapValues lift fields := by
  induction fields with
  | nil => rfl
  | cons f r ih => rw [liftFields, ih, Entries.mapValues_cons]

/-- What each part of a datum has to satisfy for containers to stand for it: a leaf comes back as it
is, and an object has its fields in order and no tag. -/
def Bare : Datum → Prop
  | .array _ => True
  | .object fields => Entries.Sorted fields ∧ Entries.contains fields Datum.tagKey = false
  | d => Plain d

theorem ofValue_of_plain {d : Datum} (h : Plain d) : ofValue d.toJson = datum d := by
  have hr : ofJson (markArrays d.toJson) = .ok (datum d) := (toJson_literal h).2
  rw [ofJson_markArrays] at hr
  exact Except.ok.inj hr

theorem ofValue_toJson {d : Datum} (h : ∀ e, Datum.Part e d → Bare e) :
    ofValue d.toJson = lift d := by
  induction d using Datum.induct with
  | array items ih =>
    have hi := (Datum.forall_part_array.mp h).2
    rw [Datum.toJson, Datum.itemsJson_eq_map, ofValue_array, List.map_map, lift, liftItems_eq_map]
    exact congrArg array (List.map_congr_left fun d hd => ih d hd (hi d hd))
  | object fields ih =>
    obtain ⟨⟨hs, ht⟩, hf⟩ := Datum.forall_part_object.mp h
    rw [← Entries.contains_mapValues Datum.toJson] at ht
    rw [Datum.toJson, Datum.fieldsJson_eq_mapValues, ofValue_untagged ht,
      Entries.mapValues_mapValues, Entries.mapValues_congr fun f hm => ih f hm (hf f hm), lift,
      liftFields_eq_mapValues, record, Entries.ofList_of_sorted (Entries.sorted_mapValues hs)]
  | _ => exact ofValue_of_plain (h _ (.self _))

/-- A literal is read back as leaves, arrays and records, and nothing else; where it holds nothing
that is read as something else, as the term that containers of its values make. Numbers and times
come back as they are if they are finite, the negative zero aside. -/
theorem ofJson_toJson_datum :
    (∀ d, ∃ t, ofJson (datum d).toJson = .ok t ∧
        ∀ u, Within u t → u.op ∈ [Opcode.datum, .makeArray, .makeObj]) ∧
      (∀ d, (∀ e, Datum.Part e d → Bare e) → ofJson (datum d).toJson = .ok (lift d)) ∧
      (∀ x, Bare (.number x) ↔ x.isFinite = true ∧ x ≠ Binary64.zero true) ∧
      ∀ t, Bare (.time t) ↔ (Json.ofFloat t.seconds).asFloat? = some t.seconds := by
  refine ⟨?_, ?_, Datum.survives_iff, ?_⟩
  · exact fun d => ⟨ofValue d.toJson, ofJson_markArrays d.toJson, op_of_within_ofValue d.toJson⟩
  · intro d hd
    rw [← ofValue_toJson hd]
    exact ofJson_markArrays d.toJson
  · intro t
    cases hf : t.seconds.isFinite <;> simp [Bare, Plain, Json.ofFloat, Json.asFloat?, hf]

theorem ofJson_toJson_datum_delete :
    let number (n : Nat) : Datum := .number (Binary64.ofNat n)
    let d : Datum := .object [("query",
      .array [number 54, .array [.array [number 15, .array [.string "users"]]]])]
    (∀ e, Datum.Part e d → Bare e) ∧
      ofJson (datum d).toJson = .ok (node .makeObj [] [("query", array [datum (number 54),
        array [array [datum (number 15), array [text "users"]]]])] none) := by
  intro number d
  have hn : Datum.Survives (Binary64.ofNat 54) ∧ Datum.Survives (Binary64.ofNat 15) := by
    simp only [Datum.survives_iff]
    decide +kernel
  have hleaf (x : Binary64) (hx : Datum.Survives x) : ∀ e, Datum.Part e (.number x) → Bare e :=
    (Datum.forall_part_leaf (by rintro _ ⟨⟩; rfl)).mpr hx
  have hname : ∀ e, Datum.Part e (.string "users") → Bare e :=
    (Datum.forall_part_leaf (by rintro _ ⟨⟩; rfl)).mpr trivial
  have hd : ∀ e, Datum.Part e d → Bare e := by
    have hb : Bare d := ⟨by simp [Entries.Sorted], by decide⟩
    rw [Datum.forall_part_object]
    refine ⟨hb, List.forall_mem_singleton.mpr ?_⟩
    simp only [Datum.forall_part_array, List.forall_mem_cons, List.not_mem_nil, false_imp_iff,
      implies_true, and_true]
    exact ⟨trivial, hleaf _ hn.1, trivial, trivial, hleaf _ hn.2, trivial, hname⟩
  exact ⟨hd, ofJson_toJson_datum.2.1 d hd⟩

end Term

end ReqlDriver
