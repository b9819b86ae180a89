import ReqlDriver.Proofs.Datum.RoundTrip
import ReqlDriver.Proofs.Entries

namespace ReqlDriver

open Datum (tagKey)

namespace Json

def ofPair (p : Json × Json) : Json := array [p.1, p.2]

structure TimeShape (entries : List (String × Json)) (x : Binary64) (zone : String) : Prop where
  tag : Entries.get? entries tagKey = some (.string "TIME")
  seconds : ∃ v, Entries.get? entries "epoch_time" = some v ∧ v.asFloat? = some x
  zone : Entries.get? entries "timezone" = some (.string zone)

structure BinaryShape (entries : List (String × Json)) (data : String) : Prop where
  tag : Entries.get? entries tagKey = some (.string "BINARY")
  payload : Entries.get? entries "data" = some (.string data)
  valid : (Base64.decode data).isSome = true

structure GroupsShape (entries : List (String × Json)) (pairs : List (Json × Json)) : Prop where
  tag : Entries.get? entries tagKey = some (.string "GROUPED_DATA")
  payload : Entries.get? entries "data" = some (.array (pairs.map ofPair))

inductive Special (entries : List (String × Json)) : Prop
  | time {x : Binary64} {zone : String} : TimeShape entries x zone → Special entries
  | binary {data : String} : BinaryShape entries data → Special entries
  | groups {pairs : List (Json × Json)} : GroupsShape entries pairs → Special entries

def timeEntries (seconds : Json) (zone : String) : List (String × Json) :=
  [(tagKey, .string "TIME"), ("epoch_time", seconds), ("timezone", .string zone)]

def binaryEntries (data : String) : List (String × Json) :=
  [(tagKey, .string "BINARY"), ("data", .string data)]

def groupsEntries (data : Json) : List (String × Json) :=
  [(tagKey, .string "GROUPED_DATA"), ("data", data)]

theorem get?_tag_inj {entries : List (String × Json)} {s t : String}
    (hs : Entries.get? entries tagKey = some (.string s))
    (ht : Entries.get? entries tagKey = some (.string t)) : s = t :=
  string.inj (Option.some.inj (hs.symm.trans ht))

theorem Special.contains_tag {entries : List (String × Json)} (h : Special entries) :
    Entries.contains entries tagKey = true := by
  cases h with
  | time h => rw [Entries.contains, h.tag]; rfl
  | binary h => rw [Entries.contains, h.tag]; rfl
  | groups h => rw [Entries.contains, h.tag]; rfl

theorem Special.of_mapValues {g : Json → Json} {entries : List (String × Json)}
    (hs : ∀ {v s}, g v = string s → v = string s)
    (hn : ∀ {v x}, (g v).asFloat? = some x → ∃ y, v.asFloat? = some y)
    (hp : ∀ {v} {pairs : List (Json × Json)}, g v = array (pairs.map ofPair) →
      ∃ others : List (Json × Json), v = array (others.map ofPair))
    (h : Special (Entries.mapValues g entries)) : Special entries := by
  have hstring {key s : String}
      (hk : Entries.get? (Entries.mapValues g entries) key = some (.string s)) :
      Entries.get? entries key = some (.string s) := by
    obtain ⟨v, hv, hf⟩ := Entries.get?_mapValues_eq_some.mp hk
    rw [hv, hs hf]
  cases h with
  | time ht =>
    obtain ⟨w, hw, hx⟩ := ht.seconds
    obtain ⟨v, hv, rfl⟩ := Entries.get?_mapValues_eq_some.mp hw
    obtain ⟨y, hy⟩ := hn hx
    exact .time ⟨hstring ht.tag, ⟨v, hv, hy⟩, hstring ht.zone⟩
  | binary hb => exact .binary ⟨hstring hb.tag, hstring hb.payload, hb.valid⟩
  | groups hg =>
    obtain ⟨v, hv, hf⟩ := Entries.get?_mapValues_eq_some.mp hg.payload
    obtain ⟨others, rfl⟩ := hp hf
    exact .groups ⟨hstring hg.tag, hv⟩

theorem sorted_timeEntries (v : Json) (zone : String) : Entries.Sorted (timeEntries v zone) :=
  Entries.sorted_iff.mpr (by decide : [tagKey, "epoch_time", "timezone"].Pairwise (· < ·))

theorem sorted_binaryEntries (data : String) : Entries.Sorted (binaryEntries data) :=
  Entries.sorted_iff.mpr (by decide : [tagKey, "data"].Pairwise (· < ·))

theorem sorted_groupsEntries (data : Json) : Entries.Sorted (groupsEntries data) :=
  Entries.sorted_iff.mpr (by decide : [tagKey, "data"].Pairwise (· < ·))

theorem timeShape_timeEntries {v : Json} {x : Binary64} (h : v.asFloat? = some x) (zone : String) :
    TimeShape (timeEntries v zone) x zone := ⟨rfl, ⟨v, rfl, h⟩, rfl⟩

theorem not_special_timeEntries {v : Json} (h : v.asFloat? = none) (zone : String) :
    ¬ Special (timeEntries v zone) := by
  rintro (⟨-, ⟨w, hw, hx⟩, -⟩ | ⟨ht, -, -⟩ | ⟨ht, -⟩)
  · have hv : some v = some w := hw
    rw [← Option.some.inj hv, h] at hx
    cases hx
  · exact absurd (get?_tag_inj rfl ht) (by decide)
  · exact absurd (get?_tag_inj rfl ht) (by decide)

theorem BinaryShape.binaryEntries {entries : List (String × Json)} {data : String}
    (h : BinaryShape entries data) : BinaryShape (binaryEntries data) data := ⟨rfl, rfl, h.valid⟩

theorem groupsShape_groupsEntries (pairs : List (Json × Json)) :
    GroupsShape (groupsEntries (array (pairs.map ofPair))) pairs := ⟨rfl, rfl⟩

theorem ofPair_injective (p q : Json × Json) (h : ofPair p = ofPair q) : p = q := by
  simpa [ofPair, Prod.ext_iff] using h

theorem GroupsShape.unique {entries : List (String × Json)} {pairs others : List (Json × Json)}
    (h : GroupsShape entries pairs) (ho : GroupsShape entries others) : pairs = others := by
  have hp := h.payload.symm.trans ho.payload
  rw [Option.some.injEq, array.injEq] at hp
  exact (List.map_inj_right ofPair_injective).mp hp

theorem isFinite_of_asFloat? {v : Json} {x : Binary64} (hv : v.Finite) (hx : v.asFloat? = some x) :
    x.isFinite = true := by
  cases hv with
  | int hl hg =>
    rw [← Option.some.inj hx]
    exact Binary64.isFinite_ofInt hl hg
  | float hf => rwa [← Option.some.inj hx]
  | _ => cases hx

end Json

namespace Datum

open Json (TimeShape BinaryShape GroupsShape Special)

theorem ofJson_object_of_recognised {entries : List (String × Json)} {d : Datum}
    (h : Recognised (Entries.mapValues ofJson entries) d) : ofJson (.object entries) = d := by
  rw [ofJson, ofEntries_eq_mapValues, ofJsonFields_of_recognised h]

theorem ofJson_object_of_not_recognised {entries : List (String × Json)}
    (h : ∀ d, ¬ Recognised (Entries.mapValues ofJson entries) d) :
    ofJson (.object entries) = object (Entries.mapValues ofJson entries) := by
  rw [ofJson, ofEntries_eq_mapValues, ofJsonFields_of_not_recognised h]

theorem ofJson_object_kind (entries : List (String × Json)) :
    (∃ t, ofJson (.object entries) = time t) ∨ (∃ bytes, ofJson (.object entries) = binary bytes) ∨
      (∃ groups, ofJson (.object entries) = grouped groups) ∨
      ∃ fields, ofJson (.object entries) = object fields := by
  by_cases h : ∃ d, Recognised (Entries.mapValues ofJson entries) d
  · obtain ⟨d, hd⟩ := h
    rw [ofJson_object_of_recognised hd]
    cases hd <;> simp
  · rw [ofJson_object_of_not_recognised (not_exists.mp h)]
    simp

theorem ofJson_eq_string_iff {v : Json} {s : String} : ofJson v = string s ↔ v = .string s := by
  cases v with
  | object entries =>
    rcases ofJson_object_kind entries with ⟨_, h⟩ | ⟨_, h⟩ | ⟨_, h⟩ | ⟨_, h⟩ <;> simp [h]
  | _ => simp [ofJson, ofInt]

theorem ofJson_eq_number_iff {v : Json} {x : Binary64} :
    ofJson v = number x ↔ v.asFloat? = some x := by
  cases v with
  | object entries =>
    rcases ofJson_object_kind entries with ⟨_, h⟩ | ⟨_, h⟩ | ⟨_, h⟩ | ⟨_, h⟩ <;>
      simp [h, Json.asFloat?]
  | _ => simp [ofJson, ofInt, Json.asFloat?]

theorem ofJson_eq_array_iff {v : Json} {ds : List Datum} :
    ofJson v = array ds ↔ ∃ items, v = .array items ∧ items.map ofJson = ds := by
  cases v with
  | object entries =>
    rcases ofJson_object_kind entries with ⟨_, h⟩ | ⟨_, h⟩ | ⟨_, h⟩ | ⟨_, h⟩ <;> simp [h]
  | _ => simp [ofJson, ofInt, ofItems_eq_map]

theorem ofJson_eq_ofGroup {v : Json} {p : Datum × Datum} (h : ofJson v = ofGroup p) :
    ∃ q, v = Json.ofPair q := by
  obtain ⟨items, rfl, hi⟩ := ofJson_eq_array_iff.mp h
  have hl : items.length = 2 := by simpa using congrArg List.length hi
  match items, hl with
  | [g, d], _ => exact ⟨(g, d), rfl⟩

theorem exists_pairs {items : List Json} {groups : List (Datum × Datum)}
    (h : items.map ofJson = groups.map ofGroup) :
    ∃ pairs : List (Json × Json), items = pairs.map Json.ofPair := by
  induction items generalizing groups with
  | nil => exact ⟨[], rfl⟩
  | cons v r ih =>
    cases groups with
    | nil => cases h
    | cons p ps =>
      obtain ⟨hp, hr⟩ := List.cons.inj h
      obtain ⟨q, rfl⟩ := ofJson_eq_ofGroup hp
      obtain ⟨pairs, rfl⟩ := ih hr
      exact ⟨q :: pairs, rfl⟩

section

variable {entries : List (String × Json)}

theorem get?_string_iff {key s : String} :
    Entries.get? (Entries.mapValues ofJson entries) key = some (string s) ↔
      Entries.get? entries key = some (.string s) := by
  simp [Entries.get?_mapValues, ofJson_eq_string_iff]

theorem recognised_of_time {x : Binary64} {zone : String} (h : TimeShape entries x zone) :
    Recognised (Entries.mapValues ofJson entries) (time ⟨x, zone⟩) := by
  obtain ⟨v, hv, hx⟩ := h.seconds
  refine .time (get?_string_iff.mpr h.tag) ?_ (get?_string_iff.mpr h.zone)
  rw [Entries.get?_mapValues, hv, Option.map_some, ofJson_eq_number_iff.mpr hx]

theorem recognised_of_binary {data : String} (h : BinaryShape entries data) :
    ∃ bytes, Base64.encode bytes = data ∧
      Recognised (Entries.mapValues ofJson entries) (binary bytes) := by
  obtain ⟨bytes, hb⟩ := Option.isSome_iff_exists.mp h.valid
  exact ⟨bytes, (Base64.decode_eq_some_iff.mp hb).symm,
    .binary (get?_string_iff.mpr h.tag) (get?_string_iff.mpr h.payload) hb⟩

theorem recognised_of_groups {pairs : List (Json × Json)} (h : GroupsShape entries pairs) :
    Recognised (Entries.mapValues ofJson entries)
      (grouped (pairs.map fun p => (ofJson p.1, ofJson p.2))) := by
  refine .grouped (get?_string_iff.mpr h.tag) ?_
  rw [Entries.get?_mapValues, h.payload, Option.map_some, ofJson, ofItems_eq_map, List.map_map,
    List.map_map]
  rfl

theorem special_of_recognised {d : Datum} (h : Recognised (Entries.mapValues ofJson entries) d) :
    Special entries := by
  cases h with
  | time ht hx hz =>
    obtain ⟨v, hv, hx⟩ := Entries.get?_mapValues_eq_some.mp hx
    exact .time ⟨get?_string_iff.mp ht, ⟨v, hv, ofJson_eq_number_iff.mp hx⟩, get?_string_iff.mp hz⟩
  | binary ht hd hb =>
    exact .binary ⟨get?_string_iff.mp ht, get?_string_iff.mp hd, by rw [hb]; rfl⟩
  | grouped ht hd =>
    obtain ⟨v, hv, hd⟩ := Entries.get?_mapValues_eq_some.mp hd
    obtain ⟨items, rfl, hi⟩ := ofJson_eq_array_iff.mp hd
    obtain ⟨pairs, rfl⟩ := exists_pairs hi
    exact .groups ⟨get?_string_iff.mp ht, hv⟩

end

end Datum

end ReqlDriver
