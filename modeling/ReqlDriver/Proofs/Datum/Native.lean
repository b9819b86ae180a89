import ReqlDriver.Datum.Native
import ReqlDriver.Datum.Serial
import ReqlDriver.Proofs.Datum.NormalForm

namespace ReqlDriver

open Datum (numberJson tagKey)

namespace Json

/-- Values with numbers as data write them, and without special objects at any depth. -/
inductive Ordinary : Json → Prop
  | null : Ordinary null
  | bool (b : Bool) : Ordinary (bool b)
  | number {x : Binary64} : x.isFinite = true → Ordinary (numberJson x)
  | string (s : String) : Ordinary (string s)
  | array {items : List Json} : (∀ v ∈ items, Ordinary v) → Ordinary (array items)
  | object {entries : List (String × Json)} : ¬ Special entries → (∀ e ∈ entries, Ordinary e.2) →
      Ordinary (object entries)

theorem finite_numberJson {x : Binary64} (h : x.isFinite = true) : (numberJson x).Finite := by
  cases hx : x.toInt? with
  | none =>
    rw [numberJson, hx]
    simpa [ofFloat, h] using .float h
  | some n =>
    by_cases hn : n.natAbs < twoTo 53
    · rw [Datum.numberJson_small hx hn]
      have h53 : twoTo 53 = 9007199254740992 := by decide
      exact .int (by simp only [Width.int64]; omega) (by simp only [Width.uint64]; omega)
    · rw [Datum.numberJson_large h (by rw [hx]; rintro _ ⟨⟩; exact hn)]
      exact .float h

theorem Ordinary.finite {v : Json} (h : Ordinary v) : v.Finite := by
  induction h with
  | null => exact .null
  | bool b => exact .bool b
  | number hx => exact finite_numberJson hx
  | string s => exact .string s
  | array _ ih => exact .array ih
  | object _ _ ih => exact .object ih

end Json

namespace Serial

mutual

def ofJson : Json → Serial
  | .null => unit
  | .bool b => bool b
  | .int n => integer n
  | .float x => float x
  | .string s => text s
  | .array items => sequence (ofItems items)
  | .object entries => mapping (ofEntries entries)

def ofItems : List Json → List Serial
  | [] => []
  | v :: r => ofJson v :: ofItems r

def ofEntries : List (String × Json) → List (Serial × Serial)
  | [] => []
  | (key, v) :: r => (text key, ofJson v) :: ofEntries r

end

theorem itemsJson_ofItems {items : List Json}
    (h : ∀ v ∈ items, (ofJson v).toJson = .ok v) : itemsJson (ofItems items) = .ok items := by
  induction items with
  | nil => rfl
  | cons v r ih =>
    obtain ⟨hv, hr⟩ := List.forall_mem_cons.mp h
    rw [ofItems, itemsJson, hv, ih hr]
    rfl

theorem entriesJson_ofEntries {entries : List (String × Json)}
    (h : ∀ e ∈ entries, (ofJson e.2).toJson = .ok e.2) :
    entriesJson (ofEntries entries) = .ok entries := by
  induction entries with
  | nil => rfl
  | cons e r ih =>
    obtain ⟨he, hr⟩ := List.forall_mem_cons.mp h
    rw [ofEntries, entriesJson, he, ih hr]
    rfl

theorem toJson_ofJson {v : Json} (hf : v.Finite) (hs : v.Sorted) :
    (ofJson v).toJson = .ok v := by
  induction hf with
  | null => rfl
  | bool b => rfl
  | string s => rfl
  | int hl hg => exact if_pos ⟨hl, hg⟩
  | float hx => simp [ofJson, toJson, Json.ofFloat, hx]
  | array _ ih =>
    have hi := Json.sorted_array.mp hs
    rw [ofJson, toJson, itemsJson_ofItems fun v hv => ih v hv (hi v hv)]
    rfl
  | object _ ih =>
    obtain ⟨hk, he⟩ := Json.sorted_object.mp hs
    rw [ofJson, toJson, entriesJson_ofEntries fun e hm => ih e hm (he e hm)]
    simp [Except.map, Json.ofEntries, Entries.ofList_of_sorted hk]

end Serial

namespace Datum

theorem plainItems_eq_map (items : List Datum) : plainItems items = items.map plain := by
  induction items with
  | nil => rfl
  | cons d r ih => rw [plainItems, ih, List.map_cons]

theorem plainFields_eq_mapValues (fields : List (String × Datum)) :
    plainFields fields = Entries.mapValues plain fields := by
  induction fields with
  | nil => rfl
  | cons f r ih => rw [plainFields, ih, Entries.mapValues_cons]

def IsJson : Datum → Prop
  | time _ => False
  | binary _ => False
  | grouped _ => False
  | _ => True

theorem plainTime_ne_object (t : Timestamp) (entries : List (String × Json)) :
    plainTime t ≠ .object entries := by
  unfold plainTime
  split <;> simp

theorem plain_eq_toJson_iff (d : Datum) : d.plain = d.toJson ↔ ∀ e, Part e d → IsJson e := by
  induction d using induct with
  | null =>
    rw [forall_part_leaf (by rintro _ ⟨⟩; rfl)]
    exact iff_of_true rfl trivial
  | boolean b =>
    rw [forall_part_leaf (by rintro _ ⟨⟩; rfl)]
    exact iff_of_true rfl trivial
  | number x =>
    rw [forall_part_leaf (by rintro _ ⟨⟩; rfl)]
    exact iff_of_true rfl trivial
  | string s =>
    rw [forall_part_leaf (by rintro _ ⟨⟩; rfl)]
    exact iff_of_true rfl trivial
  | array items ih =>
    rw [forall_part_array, plain, toJson, plainItems_eq_map, itemsJson_eq_map, Json.array.injEq,
      List.map_inj_left]
    simp only [IsJson, true_and]
    exact forall₂_congr ih
  | object fields ih =>
    rw [forall_part_object, plain, toJson, plainFields_eq_mapValues, fieldsJson_eq_mapValues,
      Json.object.injEq, Entries.mapValues_inj]
    simp only [IsJson, true_and]
    exact forall₂_congr ih
  | time t => exact iff_of_false (plainTime_ne_object t _) fun h => h _ (.self _)
  | binary bytes => exact iff_of_false (by simp [plain, toJson]) fun h => h _ (.self _)
  | grouped groups => exact iff_of_false (by simp [plain, toJson]) fun h => h _ (.self _)

theorem plain_ofJson_numberJson (x : Binary64) : (ofJson (numberJson x)).plain = numberJson x := by
  rcases numberJson_cases x with hn | ⟨y, hy, he⟩
  · rw [hn]
    rfl
  · rw [← he, ofJson_of_asFloat? hy, plain]

theorem plain_ofJson {v : Json} (h : v.Ordinary) : (ofJson v).plain = v := by
  induction h with
  | null => rfl
  | bool b => rfl
  | number hx => exact plain_ofJson_numberJson _
  | string s => rfl
  | array _ ih =>
    rw [ofJson, plain, ofItems_eq_map, plainItems_eq_map, List.map_map, Json.array.injEq,
      Json.map_eq_self_iff]
    exact ih
  | object hs _ ih =>
    rw [ofJson_object_of_not_recognised fun d hd => hs (special_of_recognised hd), plain,
      plainFields_eq_mapValues, Entries.mapValues_mapValues, Json.object.injEq,
      Json.mapValues_eq_self_iff]
    exact ih

inductive Step
  | item (i : Nat)
  | field (key : String)

/-- A datum lies at a place in another one, below arrays and objects that have no tag. -/
inductive At (e : Datum) : List Step → Datum → Prop
  | here : At e [] e
  | item {i : Nat} {place : List Step} {items : List Datum} {d : Datum} :
      items[i]? = some d → At e place d → At e (.item i :: place) (array items)
  | field {key : String} {place : List Step} {fields : List (String × Datum)} {d : Datum} :
      Entries.contains fields tagKey = false → Entries.get? fields key = some d →
      At e place d → At e (.field key :: place) (object fields)

end Datum

def Native.at? {α : Type} (read : Json → Option α) : List Datum.Step → Json → Option α
  | [], v => read v
  | .item i :: place, v => v.asArray?.bind fun items => items[i]?.bind (at? read place)
  | .field key :: place, v =>
    v.asObject?.bind fun entries => (Entries.get? entries key).bind (at? read place)

def Native.bytes? : Json → Option (List UInt8) := Native.list? Native.uint8?

theorem Native.uint8?_toNat (b : UInt8) : Native.uint8? (.int b.toNat) = some b := by
  have hb := b.toNat_lt
  have hk : Width.uint8.keep? b.toNat = some (b.toNat : Int) :=
    Width.keep?_eq_some_iff.mpr ⟨by simp only [Width.uint8]; omega, rfl⟩
  rw [Native.uint8?, Native.integer?, hk, Option.map_some, Int.toNat_natCast, UInt8.ofNat_toNat]

theorem Native.bytes?_byteItems (bytes : List UInt8) :
    Native.bytes? (.array (Datum.byteItems bytes)) = some bytes := by
  show (Datum.byteItems bytes).mapM Native.uint8? = some bytes
  induction bytes with
  | nil => rfl
  | cons b r ih =>
    rw [Datum.byteItems] at ih ⊢
    rw [List.map_cons, List.mapM_cons, Native.uint8?_toNat, ih]
    rfl

namespace Datum

theorem At.toNative? {e d : Datum} {place : List Step} (h : At e place d) {α : Type}
    (read : Json → Option α) : d.toNative? (Native.at? read place) = e.toNative? read := by
  induction h with
  | here => rfl
  | item hi _ ih =>
    rw [Datum.toNative?, plain, plainItems_eq_map, Native.at?, Json.asArray?, Option.bind_some,
      List.getElem?_map, hi, Option.map_some, Option.bind_some]
    exact ih
  | field _ hf _ ih =>
    rw [Datum.toNative?, plain, plainFields_eq_mapValues, Native.at?, Json.asObject?,
      Option.bind_some, Entries.get?_mapValues, hf, Option.map_some, Option.bind_some]
    exact ih

theorem Recognised.contains_tag {fields : List (String × Datum)} {d : Datum}
    (h : Recognised fields d) : Entries.contains fields tagKey = true := by
  cases h with
  | time ht => rw [Entries.contains, ht]; rfl
  | binary ht => rw [Entries.contains, ht]; rfl
  | grouped ht => rw [Entries.contains, ht]; rfl

theorem At.ofJson_toJson {e d : Datum} {place : List Step} (h : At e place d) :
    At (ofJson e.toJson) place (ofJson d.toJson) := by
  induction h with
  | here => exact .here
  | item hi _ ih =>
    rw [ofJson_toJson_array]
    exact .item (by rw [List.getElem?_map, hi]; rfl) ih
  | field ht hf _ ih =>
    have hc := Entries.contains_mapValues (fun d : Datum => ofJson d.toJson) _ tagKey ▸ ht
    rw [ofJson_toJson_object, ofJsonFields_of_not_recognised]
    · exact .field hc (by rw [Entries.get?_mapValues, hf]; rfl) ih
    · intro d hd
      rw [hd.contains_tag] at hc
      cases hc

/-- Values that data write as they are read come back as native values, plain JSON differs from the
JSON of the wire exactly where there is a time, binary data or groups, and bytes are found at their
place in the native value, before and after the way over the wire. -/
theorem toNative?_returns :
    (∀ v : Json, v.Ordinary → ∃ d, ofSerial (.json v) = .ok d ∧
      (v.Sorted → ofSerial (Serial.ofJson v) = .ok d) ∧ d.toNative? some = some v) ∧
      (∀ d : Datum, d.plain = d.toJson ↔ ∀ e, Part e d → IsJson e) ∧
      ∀ (bytes : List UInt8) (place : List Step) (d : Datum), At (binary bytes) place d →
        d.toNative? (Native.at? Native.bytes? place) = some bytes ∧
          (ofJson d.toJson).toNative? (Native.at? Native.bytes? place) = some bytes := by
  refine ⟨?_, plain_eq_toJson_iff, ?_⟩
  · intro v hv
    refine ⟨ofJson v, rfl, fun hs => ?_, congrArg some (plain_ofJson hv)⟩
    rw [ofSerial, Serial.toJson_ofJson hv.finite hs]
    rfl
  · intro bytes place d hd
    have hread : (binary bytes).toNative? Native.bytes? = some bytes :=
      Native.bytes?_byteItems bytes
    refine ⟨(hd.toNative? _).trans hread, ?_⟩
    have hw := hd.ofJson_toJson
    rw [ofJson_toJson_binary] at hw
    exact (hw.toNative? _).trans hread

theorem toNative?_returns_nested :
    let v : Json := .object [("data", .array [.int 3, .null]), ("name", .string "TIME")]
    let d : Datum := object [("data", array [null, binary [0, 255]])]
    (∃ e, ofSerial (Serial.ofJson v) = .ok e ∧ e.toNative? some = some v) ∧
      (ofJson d.toJson).toNative? (Native.at? Native.bytes? [.field "data", .item 1]) =
        some [0, 255] := by
  intro v d
  have h3 : (Json.int 3).Ordinary := by
    rw [← numberJson_ofInt (n := 3) (by decide)]
    exact .number (Binary64.isFinite_ofInt (by decide) (by decide))
  have hv : v.Ordinary := by
    refine .object ?_
      (List.forall_mem_cons.mpr ⟨.array ?_, List.forall_mem_singleton.mpr (.string _)⟩)
    · intro hs
      have hc : Entries.contains [("data", Json.array [.int 3, .null]), ("name", .string "TIME")]
        tagKey = false := by decide
      rw [hs.contains_tag] at hc
      cases hc
    · exact List.forall_mem_cons.mpr ⟨h3, List.forall_mem_singleton.mpr .null⟩
  have hs : v.Sorted := by
    refine Json.sorted_object.mpr ⟨?_, ?_⟩
    · exact Entries.sorted_iff.mpr (by decide : ["data", "name"].Pairwise (· < ·))
    · simp [Json.Sorted, Json.SortedItems]
  have hd : At (binary [0, 255]) [.field "data", .item 1] d :=
    .field (by decide) rfl (.item rfl .here)
  obtain ⟨e, -, he, hn⟩ := toNative?_returns.1 v hv
  exact ⟨⟨e, he hs, hn⟩, (toNative?_returns.2.2 _ _ d hd).2⟩

end Datum

end ReqlDriver
