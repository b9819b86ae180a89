import ReqlDriver.Proofs.Datum.Number
import ReqlDriver.Proofs.Entries
import ReqlDriver.Proofs.Text.Base64
import ReqlDriver.Query.Wire

namespace ReqlDriver

namespace Term

def Plain : Datum → Prop
  | .null => True
  | .boolean _ => True
  | .number x => Datum.Survives x
  | .string _ => True
  | .time t => t.seconds.isFinite = true
  | .binary _ => True
  | _ => False

inductive Normal : Term → Prop
  | literal (d : Datum) : Plain d → Normal (node .datum [] [] (some d))
  | operation (op : Opcode) (args : List Term) (options : List (String × Term)) :
      op ≠ .datum →
      (op = .makeObj → args = [] → Entries.contains options Datum.tagKey = false) →
      (∀ t ∈ args, Normal t) → (∀ o ∈ options, Normal o.2) →
      Normal (node op args options none)

/-- A number is canonical as some number writes it, and a tagged object with the keys of a time or
of binary data and no others. -/
inductive Canonical : Json → Prop
  | null : Canonical .null
  | bool (b : Bool) : Canonical (.bool b)
  | string (s : String) : Canonical (.string s)
  | number (x : Binary64) : Canonical (Datum.numberJson x)
  | time (x : Binary64) (zone : String) : x.isFinite = true →
      Canonical (.object
        [(Datum.tagKey, .string "TIME"), ("epoch_time", .float x), ("timezone", .string zone)])
  | binary (data : String) : (Base64.decode data).isSome = true →
      Canonical (.object [(Datum.tagKey, .string "BINARY"), ("data", .string data)])
  | record (entries : List (String × Json)) :
      Entries.contains entries Datum.tagKey = false →
      (∀ e ∈ entries, Canonical e.2) → Canonical (.object entries)
  | bare (op : Opcode) : op ≠ .datum → op ≠ .makeObj → Canonical (.array [.int op.code])
  | applied (op : Opcode) (args : List Json) : op ≠ .datum → args ≠ [] →
      (∀ v ∈ args, Canonical v) → Canonical (.array [.int op.code, .array args])
  | optioned (op : Opcode) (args : List Json) (options : List (String × Json)) :
      op ≠ .datum → (op = .makeObj → args ≠ []) → options ≠ [] →
      (∀ v ∈ args, Canonical v) → (∀ e ∈ options, Canonical e.2) →
      Canonical (.array [.int op.code, .array args, .object options])

theorem argsJson_eq_map (args : List Term) : argsJson args = args.map toJson := by
  induction args with
  | nil => rfl
  | cons t r ih => simp [argsJson, ih]

theorem optionsJson_eq_mapValues (options : List (String × Term)) :
    optionsJson options = Entries.mapValues toJson options := by
  induction options with
  | nil => rfl
  | cons o r ih => simp [optionsJson, Entries.mapValues, ih]

theorem opcode_code (op : Opcode) : opcode (.int op.code) = .ok op := by
  have h : (Json.int op.code).asNat? = some op.code := rfl
  simp [opcode, h, Opcode.ofCode?_code]

theorem toJson_operation {op : Opcode} {args : List Term} {options : List (String × Term)}
    (hd : op ≠ .datum) (ho : op = .makeObj → args ≠ []) (literal : Option Datum) :
    toJson (node op args options literal) =
      operationJson op (args.map toJson) (Entries.mapValues toJson options) := by
  rw [toJson.eq_3 op args options literal hd ho, argsJson_eq_map, optionsJson_eq_mapValues]

section

variable {α : Type} {f : α → Json} {g : α → Term}

theorem ofItems_map_of {items : List α} (h : ∀ a ∈ items, ofJson (f a) = .ok (g a)) :
    ofItems (items.map f) = .ok (items.map g) := by
  induction items with
  | nil => rfl
  | cons a r ih =>
    obtain ⟨ha, hr⟩ := List.forall_mem_cons.mp h
    simp [ofItems, ha, ih hr, Except.bind, Except.map]

theorem ofEntries_mapValues_of {entries : List (String × α)}
    (h : ∀ e ∈ entries, ofJson (f e.2) = .ok (g e.2)) :
    ofEntries (Entries.mapValues f entries) = .ok (Entries.mapValues g entries) := by
  induction entries with
  | nil => rfl
  | cons e r ih =>
    obtain ⟨he, hr⟩ := List.forall_mem_cons.mp h
    have ih := ih hr
    rw [Entries.mapValues, Entries.mapValues] at ih
    simp [ofEntries, Entries.mapValues, he, ih, Except.bind, Except.map]

end

theorem ofItems_map {args : List Term} (h : ∀ t ∈ args, ofJson t.toJson = .ok t) :
    ofItems (args.map toJson) = .ok args := by
  simpa using ofItems_map_of (g := id) h

theorem ofEntries_mapValues {options : List (String × Term)}
    (h : ∀ o ∈ options, ofJson o.2.toJson = .ok o.2) :
    ofEntries (Entries.mapValues toJson options) = .ok options := by
  simpa [Entries.mapValues] using ofEntries_mapValues_of (g := id) h

theorem ofJson_operationJson {op : Opcode} {items : List Json} {entries : List (String × Json)}
    {args : List Term} {options : List (String × Term)} (hd : op ≠ .datum)
    (ha : ofItems items = .ok args) (ho : ofEntries entries = .ok options) :
    ofJson (operationJson op items entries) = .ok (node op args options none) := by
  cases items with
  | nil =>
    cases ha
    cases entries with
    | nil =>
      cases ho
      simp [operationJson, ofJson, opcode_code, Except.bind, hd, ofArguments, new]
    | cons e r =>
      simp [operationJson, ofJson, opcode_code, Except.bind, Except.map, hd, ofArguments, ofItems,
        ofOptions, ho]
  | cons v vs =>
    cases entries with
    | nil =>
      cases ho
      simp [operationJson, ofJson, opcode_code, Except.bind, Except.map, hd, ofArguments, ha,
        ofOptions]
    | cons e r =>
      simp [operationJson, ofJson, opcode_code, Except.bind, Except.map, hd, ofArguments, ha,
        ofOptions, ho]

theorem canonical_operationJson {op : Opcode} {items : List Json}
    {entries : List (String × Json)} (hd : op ≠ .datum) (hm : op = .makeObj → items ≠ [])
    (hi : ∀ v ∈ items, Canonical v) (he : ∀ e ∈ entries, Canonical e.2) :
    Canonical (operationJson op items entries) := by
  cases items with
  | nil =>
    have hb : op ≠ .makeObj := fun h => hm h rfl
    cases entries with
    | nil => exact .bare op hd hb
    | cons e r => exact .optioned op [] (e :: r) hd hm (List.cons_ne_nil e r) hi he
  | cons v vs =>
    cases entries with
    | nil => exact .applied op (v :: vs) hd (List.cons_ne_nil v vs) hi
    | cons e r => exact .optioned op (v :: vs) (e :: r) hd hm (List.cons_ne_nil e r) hi he

theorem forall_mapValues {options : List (String × Term)} {P : Json → Prop}
    (h : ∀ o ∈ options, P o.2.toJson) : ∀ e ∈ Entries.mapValues toJson options, P e.2 := by
  intro e he
  obtain ⟨o, ho, rfl⟩ := List.mem_map.mp he
  exact h o ho

theorem literal_of_asFloat? {v : Json} {x : Binary64} (h : v.asFloat? = some x) :
    markArrays v = v ∧ ofJson v = .ok (datum (.number x)) := by
  cases v with
  | int n =>
    rw [← Option.some.inj h]
    exact ⟨rfl, rfl⟩
  | float y =>
    rw [← Option.some.inj h]
    exact ⟨rfl, rfl⟩
  | _ => cases h

theorem literalJson_time {t : Timestamp} (h : t.seconds.isFinite = true) :
    literalJson (some (.time t)) = .object [(Datum.tagKey, .string "TIME"),
      ("epoch_time", .float t.seconds), ("timezone", .string t.zone)] := by
  simp [literalJson, Datum.toJson, Json.ofFloat, h, markArrays, markEntries]

theorem ofJson_time (x : Binary64) (zone : String) :
    ofJson (.object [(Datum.tagKey, .string "TIME"), ("epoch_time", .float x),
      ("timezone", .string zone)]) = .ok (datum (.time ⟨x, zone⟩)) := rfl

theorem literalJson_binary (bytes : List UInt8) :
    literalJson (some (.binary bytes)) = .object [(Datum.tagKey, .string "BINARY"),
      ("data", .string (Base64.encode bytes))] := rfl

theorem ofJson_binary {data : String} {bytes : List UInt8} (h : Base64.decode data = some bytes) :
    ofJson (.object [(Datum.tagKey, .string "BINARY"), ("data", .string data)]) =
      .ok (datum (.binary bytes)) := by
  have hb : Datum.binaryOf? [(Datum.tagKey, .string "BINARY"), ("data", .string data)] =
      some (.binary bytes) := congrArg (Option.map Datum.binary) h
  have hd : Datum.ofJson (.object [(Datum.tagKey, .string "BINARY"), ("data", .string data)]) =
      .binary bytes := congrArg (Option.getD · _) hb
  exact congrArg (fun d => Except.ok (datum d)) hd

theorem ofJson_record {entries : List (String × Json)} {options : List (String × Term)}
    (ht : Entries.contains entries Datum.tagKey = false) (ho : ofEntries entries = .ok options) :
    ofJson (.object entries) = .ok (node .makeObj [] options none) := by
  simp [ofJson, ht, ho, Except.map]

theorem toJson_literal {d : Datum} (h : Plain d) :
    Canonical (datum d).toJson ∧ ofJson (datum d).toJson = .ok (datum d) := by
  cases d with
  | null => exact ⟨.null, rfl⟩
  | boolean b => exact ⟨.bool b, rfl⟩
  | string s => exact ⟨.string s, rfl⟩
  | number x =>
    obtain ⟨hm, ho⟩ := literal_of_asFloat? h
    have ht : (datum (.number x)).toJson = Datum.numberJson x := hm
    rw [ht]
    exact ⟨.number x, ho⟩
  | time t =>
    have ht : (datum (.time t)).toJson = _ := literalJson_time h
    rw [ht]
    exact ⟨.time t.seconds t.zone h, ofJson_time t.seconds t.zone⟩
  | binary bytes =>
    have hd : Base64.decode (Base64.encode bytes) = some bytes := Base64.decode_eq_some_iff.mpr rfl
    have ht : (datum (.binary bytes)).toJson = _ := literalJson_binary bytes
    rw [ht]
    exact ⟨.binary _ (by rw [hd]; rfl), ofJson_binary hd⟩
  | _ => cases h

theorem toJson_of_normal {t : Term} (h : Normal t) :
    Canonical t.toJson ∧ ofJson t.toJson = .ok t := by
  induction h with
  | literal d hp => exact toJson_literal hp
  | operation op args options hd hm ha ho iha iho =>
    have hca : ∀ v ∈ args.map toJson, Canonical v := by
      intro v hv
      obtain ⟨t, ht, rfl⟩ := List.mem_map.mp hv
      exact (iha t ht).1
    have hco := forall_mapValues fun o h => (iho o h).1
    have hra := ofItems_map fun t h => (iha t h).2
    have hro := ofEntries_mapValues fun o h => (iho o h).2
    by_cases hr : op = .makeObj ∧ args = []
    · -- Only the record is written without its opcode.
      obtain ⟨rfl, rfl⟩ := hr
      have hc := hm rfl rfl
      rw [← Entries.contains_mapValues toJson] at hc
      rw [toJson, optionsJson_eq_mapValues]
      exact ⟨.record _ hc hco, ofJson_record hc hro⟩
    · have hn : op = .makeObj → args ≠ [] := fun h he => hr ⟨h, he⟩
      rw [toJson_operation hd hn]
      have hni : op = .makeObj → args.map toJson ≠ [] := by simpa using hn
      exact ⟨canonical_operationJson hd hni hca hco, ofJson_operationJson hd hra hro⟩

def Reads (v : Json) : Prop := ∃ t, ofJson v = .ok t ∧ Normal t ∧ t.toJson = v

theorem reads_literal (d : Datum) (h : Plain d) : Reads (datum d).toJson :=
  ⟨datum d, (toJson_literal h).2, .literal d h, rfl⟩

theorem ofItems_of_reads {items : List Json} (h : ∀ v ∈ items, Reads v) :
    ∃ args, ofItems items = .ok args ∧ (∀ t ∈ args, Normal t) ∧ args.map toJson = items := by
  induction items with
  | nil => exact ⟨[], rfl, by simp, rfl⟩
  | cons v r ih =>
    obtain ⟨t, ht, hn, hv⟩ := h v List.mem_cons_self
    obtain ⟨ts, hts, hns, hvs⟩ := ih fun u hu => h u (List.mem_cons_of_mem v hu)
    refine ⟨t :: ts, ?_, List.forall_mem_cons.mpr ⟨hn, hns⟩, ?_⟩
    · simp [ofItems, ht, hts, Except.bind, Except.map]
    · rw [List.map_cons, hv, hvs]

theorem ofEntries_of_reads {entries : List (String × Json)} (h : ∀ e ∈ entries, Reads e.2) :
    ∃ options, ofEntries entries = .ok options ∧ (∀ o ∈ options, Normal o.2) ∧
      Entries.mapValues toJson options = entries := by
  induction entries with
  | nil => exact ⟨[], rfl, by simp, rfl⟩
  | cons e r ih =>
    obtain ⟨t, ht, hn, hv⟩ := h e List.mem_cons_self
    obtain ⟨os, hos, hns, hvs⟩ := ih fun u hu => h u (List.mem_cons_of_mem e hu)
    refine ⟨(e.1, t) :: os, ?_, List.forall_mem_cons.mpr ⟨hn, hns⟩, ?_⟩
    · simp [ofEntries, ht, hos, Except.bind, Except.map]
    · rw [Entries.mapValues] at hvs ⊢
      rw [List.map_cons, hv, hvs]

theorem reads_operationJson {op : Opcode} {items : List Json} {entries : List (String × Json)}
    (hd : op ≠ .datum) (hm : op = .makeObj → items ≠ [])
    (hi : ∀ v ∈ items, Reads v) (he : ∀ e ∈ entries, Reads e.2) :
    Reads (operationJson op items entries) := by
  obtain ⟨args, ha, hna, rfl⟩ := ofItems_of_reads hi
  obtain ⟨options, ho, hno, rfl⟩ := ofEntries_of_reads he
  have hn : op = .makeObj → args ≠ [] := by simpa using hm
  refine ⟨node op args options none, ofJson_operationJson hd ha ho, ?_, toJson_operation hd hn none⟩
  exact .operation op args options hd (fun h h' => absurd h' (hn h)) hna hno

theorem reads_of_canonical {v : Json} (h : Canonical v) : Reads v := by
  induction h with
  | null => exact reads_literal .null trivial
  | bool b => exact reads_literal (.boolean b) trivial
  | string s => exact reads_literal (.string s) trivial
  | number x =>
    rcases Datum.numberJson_cases x with h | ⟨y, hy, h⟩
    · rw [h]
      exact reads_literal .null trivial
    · obtain ⟨hm, ho⟩ := literal_of_asFloat? hy
      rw [← h]
      exact ⟨datum (.number y), ho, .literal _ hy, hm⟩
  | time x zone hx =>
    exact ⟨datum (.time ⟨x, zone⟩), ofJson_time x zone, .literal _ hx, literalJson_time hx⟩
  | binary data hd =>
    obtain ⟨bytes, hb⟩ := Option.isSome_iff_exists.mp hd
    refine ⟨datum (.binary bytes), ofJson_binary hb, .literal _ trivial, ?_⟩
    rw [Base64.decode_eq_some_iff.mp hb]
    exact literalJson_binary bytes
  | record entries ht _ ih =>
    obtain ⟨options, ho, hn, rfl⟩ := ofEntries_of_reads ih
    refine ⟨node .makeObj [] options none, ofJson_record ht ho, ?_, ?_⟩
    · rw [Entries.contains_mapValues] at ht
      exact .operation .makeObj [] options (by decide) (fun _ _ => ht) (by simp) hn
    · rw [toJson, optionsJson_eq_mapValues]
  | bare op hd hm =>
    have hn (h : op = .makeObj) : ([] : List Json) ≠ [] := absurd h hm
    exact reads_operationJson hd hn (List.forall_mem_nil _) (List.forall_mem_nil _)
  | applied op args hd ha _ ih =>
    have he : operationJson op args [] = .array [.int op.code, .array args] := by
      cases args with
      | nil => exact absurd rfl ha
      | cons v r => rfl
    rw [← he]
    exact reads_operationJson hd (fun _ => ha) ih (by simp)
  | optioned op args options hd hm ho _ _ iha iho =>
    have he : operationJson op args options =
        .array [.int op.code, .array args, .object options] := by
      cases options with
      | nil => exact absurd rfl ho
      | cons e r => cases args <;> rfl
    rw [← he]
    exact reads_operationJson hd hm iha iho

/-- Writing takes normal terms to canonical JSON and reading takes it back, and the other way round;
a number is normal if it is finite and not the negative zero. -/
theorem toJson_ofJson_inverse :
    (∀ t, Normal t → Canonical t.toJson ∧ ofJson t.toJson = .ok t) ∧
      (∀ v, Canonical v → ∃ t, ofJson v = .ok t ∧ Normal t ∧ t.toJson = v) ∧
      (∀ x, Plain (.number x) ↔ x.isFinite = true ∧ x ≠ Binary64.zero true) :=
  ⟨fun _ h => toJson_of_normal h, fun _ h => reads_of_canonical h, Datum.survives_iff⟩

def activeUsers : Term :=
  node .filter
    [node .table [text "users"] [] none,
      node .makeObj [] [("active", datum (.boolean true))] none]
    [("default", datum (.boolean false))] none

theorem normal_activeUsers : Normal activeUsers := by
  have hs (s : String) : Normal (text s) := .literal (.string s) trivial
  have hb (b : Bool) : Normal (datum (.boolean b)) := .literal (.boolean b) trivial
  have ht : Normal (node .table [text "users"] [] none) :=
    .operation _ _ _ (by decide) (by decide) (by simpa using hs "users") (by simp)
  have ho : Normal (node .makeObj [] [("active", datum (.boolean true))] none) :=
    .operation _ _ _ (by decide) (fun _ _ => rfl) (by simp) (by simpa using hb true)
  exact .operation _ _ _ (by decide) (by decide) (by simpa using ⟨ht, ho⟩)
    (by simpa using hb false)

theorem toJson_ofJson_inverse_activeUsers :
    Normal activeUsers ∧ Canonical activeUsers.toJson ∧
      ofJson activeUsers.toJson = .ok activeUsers ∧
      ∃ t, ofJson activeUsers.toJson = .ok t ∧ Normal t ∧ t.toJson = activeUsers.toJson :=
  have h := toJson_ofJson_inverse.1 activeUsers normal_activeUsers
  ⟨normal_activeUsers, h.1, h.2, toJson_ofJson_inverse.2.1 _ h.1⟩

end Term

end ReqlDriver
