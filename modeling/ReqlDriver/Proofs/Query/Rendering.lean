import ReqlDriver.Proofs.Datum.NormalForm
import ReqlDriver.Proofs.Json.Brief
import ReqlDriver.Proofs.Query.Literal

/-!
Terms that are read and written again. What is written can always be read, and it is written in the
same way a second time, unless a tagged object in a literal holds an array: such an object is read
as data with its arrays still marked, and they are marked once more. So is a record with the tag, in
which operations are arrays too.
-/

namespace ReqlDriver

open Json (Arrayless Flat GroupsShape Special Tidies brief spread)

namespace Term

theorem arraysOnly_markArrays : Json.ArraysOnly markArrays where
  null := rfl
  bool _ := rfl
  int _ := rfl
  float _ := rfl
  string _ := rfl
  array items := ⟨_, markArrays_array items⟩
  object := markArrays_object

theorem spread_marked (items : List Json) : spread (markArrays (.array items)) =
    1 + Json.spreadItems (items.map markArrays) := by
  rw [markArrays_array]
  rfl

theorem spread_le_markArrays (v : Json) : spread v ≤ spread (markArrays v) := by
  induction v using Json.induct with
  | array items ih =>
    rw [spread_marked]
    exact Nat.le_trans (Json.spreadItems_le_map ih) (Nat.le_add_left _ 1)
  | _ => exact Nat.le_refl 1

theorem brief_arrayless_iff {v w : Json} (ha : Arrayless w) :
    brief (markArrays w) = brief v ↔ Arrayless v ∧ w = v := by
  rw [arraysOnly_markArrays.eq_self ha, Json.arraysOnly_brief.eq_self ha]
  constructor
  · intro he
    have hv : Arrayless v := Json.arraysOnly_brief.arrayless (he ▸ ha)
    exact ⟨hv, he.trans (Json.arraysOnly_brief.eq_self hv)⟩
  · rintro ⟨hv, rfl⟩
    exact (Json.arraysOnly_brief.eq_self hv).symm

section

variable {f : Json → Json} (h : Tidies f)
include h

theorem spread_tidied (v : Json) : spread (f v) = spread v := by
  have hn (x : Binary64) := Json.spread_of_arrayless (Json.arrayless_numberJson x)
  induction v using Json.induct with
  | null => rw [h.null]
  | bool b => rw [h.bool]
  | string s => rw [h.string]
  | int n => exact (congrArg spread (h.number _ _ rfl)).trans (hn _)
  | float x => exact (congrArg spread (h.number _ _ rfl)).trans (hn x)
  | array items ih => rw [h.array, Json.spread_map ih]
  | object entries =>
    obtain ⟨fields, he⟩ := h.exists_object entries
    rw [he]
    rfl

theorem brief_marked_array_ne (items : List Json) :
    brief (markArrays (f (.array items))) ≠ brief (.array items) := by
  intro he
  have hs : 1 + Json.spreadItems ((items.map f).map markArrays) =
      Json.spreadItems (items.map f) := by
    have hs := congrArg spread he
    rwa [Json.spread_brief, Json.spread_brief, ← spread_tidied h (.array items), h.array,
      spread_marked, spread] at hs
  have hle := Json.spreadItems_le_map fun v (_ : v ∈ items.map f) => spread_le_markArrays v
  omega

theorem brief_marked_iff (v : Json) :
    brief (markArrays (f v)) = brief v ↔ Arrayless v ∧ f v = v := by
  have hn (u : Json) (x : Binary64) (hx : u.asFloat? = some x) : Arrayless (f u) := by
    rw [h.number u x hx]
    exact Json.arrayless_numberJson x
  -- Only below plain objects is there anything to go on with: an array differs at once, and with it
  -- groups, and nothing else holds any.
  induction v using Json.induct with
  | null => exact brief_arrayless_iff (by rw [h.null]; exact .null)
  | bool b => exact brief_arrayless_iff (by rw [h.bool]; exact .bool b)
  | string s => exact brief_arrayless_iff (by rw [h.string]; exact .string s)
  | int n => exact brief_arrayless_iff (hn _ _ rfl)
  | float x => exact brief_arrayless_iff (hn _ _ rfl)
  | array items =>
    exact iff_of_false (brief_marked_array_ne h items) fun ha =>
      Json.not_arrayless_array items ha.1
  | object entries ih =>
    by_cases hs : Special entries
    · cases hs with
      | time ht =>
        apply brief_arrayless_iff
        rw [h.time _ _ _ ht, Json.arrayless_object_iff]
        simp [Json.timeEntries, Json.arrayless_ofFloat, Arrayless.string]
      | binary hb =>
        apply brief_arrayless_iff
        rw [h.binary _ _ hb, Json.arrayless_object_iff]
        simp [Json.binaryEntries, Arrayless.string]
      | groups hg =>
        refine iff_of_false ?_ fun ha => Json.not_arrayless_array _
          (Json.arrayless_object_iff.mp ha.1 _ (mem_of_lookup_eq_some hg.payload))
        intro he
        rw [h.groups _ _ hg, markArrays_object, Json.brief_object, Json.brief_object,
          Json.object.injEq] at he
        have hd := congrArg (Entries.get? · "data") he
        simp only [Entries.get?_mapValues, hg.payload] at hd
        exact brief_marked_array_ne h _ (Option.some.inj hd)
    · rw [h.plain _ hs, markArrays_object, Json.brief_object, Json.brief_object, Json.object.injEq,
        Json.object.injEq, Entries.mapValues_mapValues, Entries.mapValues_mapValues,
        Entries.mapValues_inj, Json.mapValues_eq_self_iff, Json.arrayless_object_iff]
      constructor
      · intro he
        have hi := fun e hm => (ih e hm).mp (he e hm)
        exact ⟨fun e hm => (hi e hm).1, fun e hm => (hi e hm).2⟩
      · rintro ⟨ha, hf⟩ e hm
        exact (ih e hm).mpr ⟨ha e hm, hf e hm⟩

end

theorem brief_operationJson (op : Opcode) (items : List Json) :
    brief (operationJson op items []) = brief (.array [.int op.code, .array items]) := by
  cases items with
  | nil => rfl
  | cons v r => rfl

theorem brief_call_iff {op : Opcode} {xs ys : List Json} (hl : xs.length = ys.length) :
    brief (.array [.int op.code, .array xs]) = brief (.array [.int op.code, .array ys]) ↔
      xs.map brief = ys.map brief := by
  rw [Json.brief_array_inj (by simp)]
  simp [Json.brief_array_inj hl]

theorem brief_operationJson_iff {op : Opcode} {xs ys : List Json} {es fs : List (String × Json)}
    (hx : xs.length = ys.length) (he : es.length = fs.length) :
    brief (operationJson op xs es) = brief (operationJson op ys fs) ↔
      xs.map brief = ys.map brief ∧
        Entries.mapValues brief es = Entries.mapValues brief fs := by
  have hcall (vs : List Json) (e : String × Json) (r : List (String × Json)) :
      operationJson op vs (e :: r) = .array [.int op.code, .array vs, .object (e :: r)] := by
    cases vs <;> rfl
  cases es with
  | nil =>
    obtain rfl := List.eq_nil_of_length_eq_zero he.symm
    rw [brief_operationJson, brief_operationJson, brief_call_iff hx]
    simp
  | cons e es =>
    cases fs with
    | nil => cases he
    | cons d fs =>
      rw [hcall, hcall, Json.brief_array_inj (by simp)]
      simp [Json.brief_array_inj hx, Json.brief_object]

theorem toJson_array (items : List Term) :
    (array items).toJson = operationJson .makeArray (items.map toJson) [] :=
  toJson_operation (by decide) (fun h => absurd h (by decide)) none

theorem toJson_record (options : List (String × Term)) (literal : Option Datum) :
    (node .makeObj [] options literal).toJson = .object (Entries.mapValues toJson options) := by
  rw [toJson, optionsJson_eq_mapValues]

def tidy (v : Json) : Json := (Datum.ofJson v).toJson

theorem tidies_tidy : Tidies tidy := Datum.tidies_toJson_ofJson

theorem toJson_datum_ofJson (v : Json) : (datum (Datum.ofJson v)).toJson = markArrays (tidy v) :=
  rfl

theorem brief_ofValue_leaf {v : Json} (hv : tidy v = v)
    (hl : ofValue v = datum (Datum.ofJson v)) (hf : Flat v) :
    brief (ofValue v).toJson = brief (markArrays v) ↔ Flat v := by
  rw [hl, toJson_datum_ofJson, hv]
  exact iff_of_true rfl hf

theorem brief_ofValue_iff {v : Json} (hv : tidy v = v) :
    brief (ofValue v).toJson = brief (markArrays v) ↔ Flat v := by
  induction v using Json.induct with
  | null => exact brief_ofValue_leaf hv rfl (.arrayless .null)
  | bool b => exact brief_ofValue_leaf hv rfl (.arrayless (.bool b))
  | int n => exact brief_ofValue_leaf hv rfl (.arrayless (.int n))
  | float x => exact brief_ofValue_leaf hv rfl (.arrayless (.float x))
  | string s => exact brief_ofValue_leaf hv rfl (.arrayless (.string s))
  | array items ih =>
    rw [tidies_tidy.array, Json.array.injEq, Json.map_eq_self_iff] at hv
    rw [ofValue_array, toJson_array, brief_operationJson, markArrays_array,
      brief_call_iff (by simp), Json.flat_array_iff, List.map_map, List.map_map, List.map_map,
      List.map_inj_left]
    exact forall₂_congr fun v hm => ih v hm (hv v hm)
  | object entries ih =>
    cases ht : Entries.contains entries Datum.tagKey with
    | true =>
      rw [ofValue_tagged ht, toJson_datum_ofJson, brief_marked_iff tidies_tidy,
        Json.flat_tagged_iff ht]
      refine ⟨fun hm => arraysOnly_markArrays.arrayless hm.1, fun ha => ?_⟩
      rw [arraysOnly_markArrays.eq_self ha]
      exact ⟨ha, hv⟩
    | false =>
      have hs : ¬ Special entries := fun hs => by simp [hs.contains_tag] at ht
      rw [tidies_tidy.plain _ hs, Json.object.injEq, Json.mapValues_eq_self_iff] at hv
      rw [ofValue_untagged ht, toJson_record, markArrays_object, Json.brief_object,
        Json.brief_object, Json.flat_untagged_iff ht, Json.object.injEq,
        Entries.mapValues_mapValues, Entries.mapValues_mapValues, Entries.mapValues_mapValues,
        Entries.mapValues_inj]
      exact forall₂_congr fun e hm => ih e hm (hv e hm)

mutual

def reread : Term → Term
  | node .datum _ _ literal => ofValue (literal.elim .null Datum.toJson)
  | node .makeObj [] options literal =>
    if Entries.contains options Datum.tagKey then
      datum (Datum.ofJson (node .makeObj [] options literal).toJson)
    else node .makeObj [] (rereadOptions options) none
  | node op args options _ => node op (rereadArgs args) (rereadOptions options) none

def rereadArgs : List Term → List Term
  | [] => []
  | t :: r => reread t :: rereadArgs r

def rereadOptions : List (String × Term) → List (String × Term)
  | [] => []
  | (k, t) :: r => (k, reread t) :: rereadOptions r

end

theorem rereadArgs_eq_map (args : List Term) : rereadArgs args = args.map reread := by
  induction args with
  | nil => rfl
  | cons t r ih => rw [rereadArgs, ih, List.map_cons]

theorem rereadOptions_eq_mapValues (options : List (String × Term)) :
    rereadOptions options = Entries.mapValues reread options := by
  induction options with
  | nil => rfl
  | cons o r ih => rw [rereadOptions, ih, Entries.mapValues_cons]

section

variable {op : Opcode} {args : List Term} {options : List (String × Term)}

theorem reread_operation (hd : op ≠ .datum) (ho : op = .makeObj → args ≠ [])
    (literal : Option Datum) : reread (node op args options literal) =
      node op (args.map reread) (Entries.mapValues reread options) none := by
  rw [reread.eq_3 op args options literal hd ho, rereadArgs_eq_map,
    rereadOptions_eq_mapValues]

theorem reread_tagged (h : Entries.contains options Datum.tagKey = true) (literal : Option Datum) :
    reread (node .makeObj [] options literal) =
      datum (Datum.ofJson (node .makeObj [] options literal).toJson) := by
  rw [reread, if_pos h]

theorem reread_record (h : Entries.contains options Datum.tagKey = false)
    (literal : Option Datum) : reread (node .makeObj [] options literal) =
      node .makeObj [] (Entries.mapValues reread options) none := by
  rw [reread, if_neg (by simp [h]), rereadOptions_eq_mapValues]

end

theorem ofJson_toJson (t : Term) : ofJson t.toJson = .ok t.reread := by
  induction t using induct with
  | node op args options literal iha iho =>
    by_cases hd : op = .datum
    · subst hd
      cases literal with
      | none => rfl
      | some d => exact ofJson_markArrays d.toJson
    · by_cases hr : op = .makeObj ∧ args = []
      · obtain ⟨rfl, rfl⟩ := hr
        have hk := Entries.contains_mapValues toJson options Datum.tagKey
        cases ht : Entries.contains options Datum.tagKey with
        | true =>
          rw [reread_tagged ht, toJson_record, ofJson, if_pos (hk.trans ht)]
        | false =>
          rw [reread_record ht, toJson_record]
          exact ofJson_record (hk.trans ht) (ofEntries_mapValues_of iho)
      · have hn : op = .makeObj → args ≠ [] := fun h he => hr ⟨h, he⟩
        rw [reread_operation hd hn, toJson_operation hd hn]
        exact ofJson_operationJson hd (ofItems_map_of iha) (ofEntries_mapValues_of iho)

inductive Read : Term → Prop
  | literal (v : Json) : Read (datum (Datum.ofJson v))
  | operation {op : Opcode} {args : List Term} {options : List (String × Term)} :
      op ≠ .datum → (∀ t ∈ args, Read t) → (∀ o ∈ options, Read o.2) →
      Read (node op args options none)

theorem read_of_ofJson {v : Json} {t : Term} (h : ofJson v = .ok t) : Read t := by
  induction t using induct generalizing v with
  | node op args options literal iha iho =>
    rcases ofJson_eq_ok h with ⟨w, hw⟩ | ⟨hd, rfl, ha, ho⟩
    · rw [hw]
      exact .literal w
    · refine .operation hd ?_ ?_
      · intro t ht
        obtain ⟨w, hw⟩ := ha t ht
        exact iha t ht hw
      · intro o hm
        obtain ⟨w, hw⟩ := ho o hm
        exact iho o hm hw

/-- The terms that are written in the same way again: no tagged object in a literal holds an array,
and a record with the tag holds none either and is kept by reading it as data. -/
inductive Kept : Term → Prop
  | literal {d : Datum} : Flat d.toJson → Kept (datum d)
  | operation {op : Opcode} {args : List Term} {options : List (String × Term)} :
      op ≠ .datum → (op = .makeObj → args = [] → Entries.contains options Datum.tagKey = false) →
      (∀ t ∈ args, Kept t) → (∀ o ∈ options, Kept o.2) → Kept (node op args options none)
  | tagged {options : List (String × Term)} : Entries.contains options Datum.tagKey = true →
      Arrayless (node .makeObj [] options none).toJson →
      tidy (node .makeObj [] options none).toJson = (node .makeObj [] options none).toJson →
      Kept (node .makeObj [] options none)

section

variable {op : Opcode} {args : List Term} {options : List (String × Term)}

theorem kept_datum_iff {d : Datum} : Kept (datum d) ↔ Flat d.toJson := by
  constructor
  · intro h
    cases h with
    | literal h => exact h
  · exact .literal

theorem kept_tagged_iff (ht : Entries.contains options Datum.tagKey = true) :
    Kept (node .makeObj [] options none) ↔ Arrayless (node .makeObj [] options none).toJson ∧
      tidy (node .makeObj [] options none).toJson = (node .makeObj [] options none).toJson := by
  constructor
  · intro h
    cases h with
    | operation _ hu => simp [ht] at hu
    | tagged _ ha he => exact ⟨ha, he⟩
  · rintro ⟨ha, he⟩
    exact .tagged ht ha he

theorem kept_operation_iff (hd : op ≠ .datum)
    (hu : op = .makeObj → args = [] → Entries.contains options Datum.tagKey = false) :
    Kept (node op args options none) ↔ (∀ t ∈ args, Kept t) ∧ ∀ o ∈ options, Kept o.2 := by
  constructor
  · intro h
    cases h with
    | operation _ _ ha ho => exact ⟨ha, ho⟩
    | tagged ht => simp [hu rfl rfl] at ht
  · rintro ⟨ha, ho⟩
    exact .operation hd hu ha ho

end

theorem brief_reread_iff {t : Term} (ht : Read t) :
    brief t.reread.toJson = brief t.toJson ↔ Kept t := by
  induction ht with
  | literal v =>
    rw [kept_datum_iff]
    exact brief_ofValue_iff (tidies_tidy.idempotent v)
  | @operation op args options hd _ _ iha iho =>
    by_cases hr : op = .makeObj ∧ args = []
    · obtain ⟨rfl, rfl⟩ := hr
      cases hk : Entries.contains options Datum.tagKey with
      | true =>
        rw [reread_tagged hk, toJson_datum_ofJson, kept_tagged_iff hk]
        exact brief_marked_iff tidies_tidy _
      | false =>
        rw [reread_record hk, toJson_record, toJson_record, Json.brief_object, Json.brief_object,
          Json.object.injEq, Entries.mapValues_mapValues, Entries.mapValues_mapValues,
          Entries.mapValues_mapValues, Entries.mapValues_inj, kept_operation_iff hd fun _ _ => hk,
          and_iff_right (List.forall_mem_nil _)]
        exact forall₂_congr iho
    · have hn : op = .makeObj → args ≠ [] := fun h he => hr ⟨h, he⟩
      have hn' : op = .makeObj → args.map reread ≠ [] := by simpa using hn
      rw [reread_operation hd hn, toJson_operation hd hn, toJson_operation hd hn',
        brief_operationJson_iff (by simp) (by simp [Entries.mapValues]),
        kept_operation_iff hd fun h he => absurd he (hn h)]
      refine and_congr ?_ ?_
      · rw [List.map_map, List.map_map, List.map_map, List.map_inj_left]
        exact forall₂_congr iha
      · rw [Entries.mapValues_mapValues, Entries.mapValues_mapValues, Entries.mapValues_mapValues,
          Entries.mapValues_inj]
        exact forall₂_congr iho

/-- What a term that was read is written as can be read again, and it is then written as before, but
for empty lists of arguments, if and only if the term is one of those that are kept. -/
theorem rewritten_eq_iff_kept {v : Json} {t : Term} (h : ofJson v = .ok t) :
    ∃ u, ofJson t.toJson = .ok u ∧ (brief u.toJson = brief t.toJson ↔ Kept t) :=
  ⟨t.reread, ofJson_toJson t, brief_reread_iff (read_of_ofJson h)⟩

theorem rewritten_eq_iff_kept_insert :
    let v : Json := .array [.int Opcode.insert.code, .array
      [.array [.int Opcode.datum.code, .array [.string "a", .array []]],
        .object [("$reql_type$", .string "UUID"), ("id", .string "a")]]]
    ∃ t, ofJson v = .ok t ∧ ∃ u, ofJson t.toJson = .ok u ∧ brief u.toJson = brief t.toJson := by
  intro v
  let list : Datum := .array [.string "a", .array []]
  let uuid : Datum := .object [("$reql_type$", .string "UUID"), ("id", .string "a")]
  let t : Term := node .insert [datum list, datum uuid] [] none
  have ht : ofJson v = .ok t := by rfl
  have hl : Flat list.toJson := by
    refine .array (List.forall_mem_cons.mpr ⟨.arrayless (.string "a"), ?_⟩)
    exact List.forall_mem_singleton.mpr (.array (List.forall_mem_nil _))
  have ho : Flat uuid.toJson :=
    .arrayless (.object (List.forall_mem_cons.mpr ⟨.string "UUID",
      List.forall_mem_singleton.mpr (.string "a")⟩))
  have hk : Kept t := by
    refine .operation (by decide) nofun (List.forall_mem_cons.mpr ⟨.literal hl, ?_⟩)
      (List.forall_mem_nil _)
    exact List.forall_mem_singleton.mpr (.literal ho)
  obtain ⟨u, hu, hiff⟩ := rewritten_eq_iff_kept ht
  exact ⟨t, ht, u, hu, hiff.mpr hk⟩

theorem rewritten_ne_groups :
    let v : Json := .object [("$reql_type$", .string "GROUPED_DATA"),
      ("data", .array [.array [.int 1, .array [.int 2]]])]
    ∃ t u, ofJson v = .ok t ∧ ofJson t.toJson = .ok u ∧ brief u.toJson ≠ brief t.toJson := by
  intro v
  refine ⟨datum (Datum.ofJson v), _, rfl, ofJson_toJson _, ?_⟩
  rw [ne_eq, brief_reread_iff (.literal v), kept_datum_iff]
  intro hf
  have hg : GroupsShape _ [(.int 1, .array [.int 2])] := Json.groupsShape_groupsEntries _
  have ht : tidy v = .object (Json.groupsEntries (tidy _)) := tidies_tidy.groups _ _ hg
  have hf : Flat (tidy v) := hf
  rw [ht, tidies_tidy.array, Json.flat_tagged_iff rfl, Json.arrayless_object_iff] at hf
  exact absurd (hf _ (List.mem_cons_of_mem _ List.mem_cons_self)) (Json.not_arrayless_array _)

end Term

end ReqlDriver
