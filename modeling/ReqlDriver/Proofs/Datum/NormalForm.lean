import ReqlDriver.Proofs.Datum.Special
import ReqlDriver.Proofs.Json.Parts

namespace ReqlDriver

open Datum (tagKey numberJson)

namespace Json

/-- How values change: numbers are written as data writes them, and special objects with the keys of
their payload only. -/
structure Tidies (f : Json → Json) : Prop where
  null : f .null = .null
  bool : ∀ b, f (.bool b) = .bool b
  string : ∀ s, f (.string s) = .string s
  number : ∀ v x, v.asFloat? = some x → f v = numberJson x
  array : ∀ items, f (.array items) = .array (items.map f)
  time : ∀ entries x zone, TimeShape entries x zone →
    f (.object entries) = .object (timeEntries (ofFloat x) zone)
  binary : ∀ entries data, BinaryShape entries data →
    f (.object entries) = .object (binaryEntries data)
  groups : ∀ entries pairs, GroupsShape entries pairs →
    f (.object entries) = .object (groupsEntries (f (.array (pairs.map ofPair))))
  plain : ∀ entries, ¬ Special entries → f (.object entries) = .object (Entries.mapValues f entries)

theorem numberJson_or (x : Binary64) :
    numberJson x = null ∨ ∃ y, (numberJson x).asFloat? = some y := by
  rcases Datum.numberJson_cases x with h | ⟨y, hy, h⟩
  · exact .inl h
  · exact .inr ⟨y, h ▸ hy⟩

theorem map_eq_self_iff {α : Type} {g : α → α} {xs : List α} :
    xs.map g = xs ↔ ∀ x ∈ xs, g x = x := by
  have hm := List.map_inj_left (l := xs) (f := g) (g := id)
  rwa [List.map_id] at hm

theorem mapValues_eq_self_iff {f : Json → Json} {entries : List (String × Json)} :
    Entries.mapValues f entries = entries ↔ ∀ e ∈ entries, f e.2 = e.2 := by
  rw [Entries.mapValues, map_eq_self_iff]
  exact forall₂_congr fun e _ => by simp [Prod.ext_iff]

namespace Tidies

variable {f : Json → Json} (h : Tidies f)
include h

theorem exists_object (entries : List (String × Json)) :
    ∃ fields, f (.object entries) = .object fields := by
  by_cases hs : Special entries
  · cases hs with
    | time ht => exact ⟨_, h.time _ _ _ ht⟩
    | binary hb => exact ⟨_, h.binary _ _ hb⟩
    | groups hg => exact ⟨_, h.groups _ _ hg⟩
  · exact ⟨_, h.plain _ hs⟩

theorem kinds (v : Json) : (∃ x, v.asFloat? = some x ∧ f v = numberJson x) ∨
    (∃ items, v = .array items ∧ f v = .array (items.map f)) ∨
    (∃ es fs, v = .object es ∧ f v = .object fs) ∨ v.asFloat? = none ∧ f v = v := by
  cases v with
  | null => exact .inr (.inr (.inr ⟨rfl, h.null⟩))
  | bool b => exact .inr (.inr (.inr ⟨rfl, h.bool b⟩))
  | int n => exact .inl ⟨_, rfl, h.number _ _ rfl⟩
  | float x => exact .inl ⟨_, rfl, h.number _ _ rfl⟩
  | string s => exact .inr (.inr (.inr ⟨rfl, h.string s⟩))
  | array items => exact .inr (.inl ⟨items, rfl, h.array items⟩)
  | object entries =>
    obtain ⟨fields, hf⟩ := h.exists_object entries
    exact .inr (.inr (.inl ⟨entries, fields, rfl, hf⟩))

theorem eq_string {v : Json} {s : String} (hv : f v = .string s) : v = .string s := by
  rcases h.kinds v with ⟨x, -, hf⟩ | ⟨items, -, hf⟩ | ⟨es, fs, -, hf⟩ | ⟨-, hf⟩
  · rcases numberJson_or x with hn | ⟨y, hy⟩
    · simp [hf, hn] at hv
    · rw [← hf, hv] at hy
      cases hy
  · simp [hf] at hv
  · simp [hf] at hv
  · rwa [hf] at hv

theorem exists_asFloat? {v : Json} {y : Binary64} (hv : (f v).asFloat? = some y) :
    ∃ x, v.asFloat? = some x := by
  rcases h.kinds v with ⟨x, hx, -⟩ | ⟨items, -, hf⟩ | ⟨es, fs, -, hf⟩ | ⟨-, hf⟩
  · exact ⟨x, hx⟩
  · simp [hf, asFloat?] at hv
  · simp [hf, asFloat?] at hv
  · exact ⟨y, by rwa [hf] at hv⟩

theorem eq_array {v : Json} {items : List Json} (hv : f v = .array items) :
    ∃ vs, v = .array vs ∧ vs.map f = items := by
  rcases h.kinds v with ⟨x, -, hf⟩ | ⟨vs, rfl, hf⟩ | ⟨es, fs, -, hf⟩ | ⟨-, hf⟩
  · rcases numberJson_or x with hn | ⟨y, hy⟩
    · simp [hf, hn] at hv
    · rw [← hf, hv] at hy
      cases hy
  · exact ⟨vs, rfl, by simpa [hf] using hv⟩
  · simp [hf] at hv
  · rw [hf] at hv
    exact ⟨items, hv, by simpa [hv, h.array] using hf⟩

theorem ofPair (p : Json × Json) : f (ofPair p) = Json.ofPair (f p.1, f p.2) := h.array [p.1, p.2]

theorem pairs (pairs : List (Json × Json)) : f (.array (pairs.map Json.ofPair)) =
    .array ((pairs.map fun p => (f p.1, f p.2)).map Json.ofPair) := by
  rw [h.array, List.map_map, List.map_map]
  exact congrArg Json.array (List.map_congr_left fun p _ => h.ofPair p)

theorem eq_pairs {vs : List Json} {pairs : List (Json × Json)}
    (hv : vs.map f = pairs.map Json.ofPair) :
    ∃ others : List (Json × Json), vs = others.map Json.ofPair := by
  induction vs generalizing pairs with
  | nil => exact ⟨[], rfl⟩
  | cons v r ih =>
    cases pairs with
    | nil => cases hv
    | cons p ps =>
      obtain ⟨hp, hr⟩ := List.cons.inj hv
      obtain ⟨others, rfl⟩ := ih hr
      obtain ⟨ws, rfl, hw⟩ := h.eq_array hp
      have hl : ws.length = 2 := by simpa using congrArg List.length hw
      match ws, hl with
      | [g, d], _ => exact ⟨(g, d) :: others, rfl⟩

theorem not_special {entries : List (String × Json)} (hs : ¬ Special entries) :
    ¬ Special (Entries.mapValues f entries) := by
  refine fun hm => hs (hm.of_mapValues h.eq_string h.exists_asFloat? ?_)
  intro v pairs hv
  obtain ⟨vs, rfl, hvs⟩ := h.eq_array hv
  obtain ⟨others, rfl⟩ := h.eq_pairs hvs
  exact ⟨others, rfl⟩

theorem numberJson (x : Binary64) : f (Datum.numberJson x) = Datum.numberJson x := by
  rcases Datum.numberJson_cases x with hn | ⟨y, hy, he⟩
  · rw [hn, h.null]
  · rw [← he]
    exact h.number _ _ hy

theorem timeEntries (x : Binary64) (zone : String) :
    f (.object (timeEntries (ofFloat x) zone)) = .object (Json.timeEntries (ofFloat x) zone) := by
  cases hf : x.isFinite with
  | true =>
    have hx : (ofFloat x).asFloat? = some x := by simp [ofFloat, hf, asFloat?]
    exact h.time _ _ _ (timeShape_timeEntries hx zone)
  | false =>
    have hn : ofFloat x = .null := by simp [ofFloat, hf]
    rw [hn, h.plain _ (not_special_timeEntries rfl zone)]
    simp [Json.timeEntries, Entries.mapValues, h.string, h.null]

theorem idempotent (v : Json) : f (f v) = f v := by
  induction v using induct with
  | null => rw [h.null, h.null]
  | bool b => rw [h.bool, h.bool]
  | string s => rw [h.string, h.string]
  | int n => rw [h.number (.int n) _ rfl, h.numberJson]
  | float x => rw [h.number (.float x) _ rfl, h.numberJson]
  | array items ih =>
    rw [h.array, h.array, map_eq_self_iff.mpr]
    exact List.forall_mem_map.mpr ih
  | object entries ih =>
    by_cases hs : Special entries
    · cases hs with
      | time ht => rw [h.time _ _ _ ht, h.timeEntries]
      | binary hb => rw [h.binary _ _ hb, h.binary _ _ hb.binaryEntries]
      | @groups pairs hg =>
        have hd := ih _ (mem_of_lookup_eq_some hg.payload)
        have hp := h.pairs pairs
        have hg' := groupsShape_groupsEntries (pairs.map fun p => (f p.1, f p.2))
        rw [h.groups _ _ hg, hp, h.groups _ _ hg', ← hp, hd]
    · rw [h.plain _ hs, h.plain _ (h.not_special hs), mapValues_eq_self_iff.mpr]
      exact List.forall_mem_map.mpr ih

end Tidies

/-- What of a value is reached as data: not what special objects hold beside their payload. -/
inductive Reached : Json → Json → Prop
  | self (v : Json) : Reached v v
  | item {u v : Json} {items : List Json} : v ∈ items → Reached u v → Reached u (array items)
  | entry {u : Json} {e : String × Json} {entries : List (String × Json)} : ¬ Special entries →
      e ∈ entries → Reached u e.2 → Reached u (object entries)
  | group {u : Json} {p : Json × Json} {entries : List (String × Json)}
      {pairs : List (Json × Json)} : GroupsShape entries pairs → p ∈ pairs → Reached u p.1 →
      Reached u (object entries)
  | reduction {u : Json} {p : Json × Json} {entries : List (String × Json)}
      {pairs : List (Json × Json)} : GroupsShape entries pairs → p ∈ pairs → Reached u p.2 →
      Reached u (object entries)

/-- A number as data writes it; a special object with the keys of its payload only, the seconds of a
time as a float. -/
structure Settled (u : Json) : Prop where
  number : ∀ x, u.asFloat? = some x → u = numberJson x
  time : ∀ entries x zone, u = object entries → TimeShape entries x zone →
    Entries.keys entries ⊆ [tagKey, "epoch_time", "timezone"] ∧
      Entries.get? entries "epoch_time" = some (float x)
  binary : ∀ entries data, u = object entries → BinaryShape entries data →
    Entries.keys entries ⊆ [tagKey, "data"]
  groups : ∀ entries pairs, u = object entries → GroupsShape entries pairs →
    Entries.keys entries ⊆ [tagKey, "data"]

section

variable {entries : List (String × Json)}

theorem settled_of_not_object {u : Json} (hn : ∀ x, u.asFloat? = some x → u = numberJson x)
    (h : ∀ entries, u ≠ object entries) : Settled u :=
  ⟨hn, fun entries _ _ hu => absurd hu (h entries), fun entries _ hu => absurd hu (h entries),
    fun entries _ hu => absurd hu (h entries)⟩

theorem settled_plain (h : ¬ Special entries) : Settled (object entries) := by
  refine ⟨fun _ hx => (by cases hx), ?_, ?_, ?_⟩
  · rintro _ x zone ⟨⟩ ht
    exact absurd (.time ht) h
  · rintro _ data ⟨⟩ hb
    exact absurd (.binary hb) h
  · rintro _ pairs ⟨⟩ hg
    exact absurd (.groups hg) h

theorem settled_time_iff {x : Binary64} {zone : String} (h : TimeShape entries x zone) :
    Settled (object entries) ↔ Entries.keys entries ⊆ [tagKey, "epoch_time", "timezone"] ∧
      Entries.get? entries "epoch_time" = some (float x) := by
  constructor
  · exact fun hs => hs.time _ _ _ rfl h
  · refine fun hk => ⟨fun _ hx => (by cases hx), ?_, ?_, ?_⟩
    · rintro _ y zone ⟨⟩ ht
      obtain ⟨v, hv, hy⟩ := ht.seconds
      rw [hk.2] at hv
      obtain rfl := Option.some.inj hv
      obtain rfl := Option.some.inj hy
      exact hk
    · rintro _ data ⟨⟩ hb
      exact absurd (get?_tag_inj h.tag hb.tag) (by decide)
    · rintro _ pairs ⟨⟩ hg
      exact absurd (get?_tag_inj h.tag hg.tag) (by decide)

theorem settled_of_keys {tag : String} (ht : Entries.get? entries tagKey = some (.string tag))
    (hn : tag ≠ "TIME") (hk : Entries.keys entries ⊆ [tagKey, "data"]) :
    Settled (object entries) := by
  refine ⟨fun _ hx => (by cases hx), ?_, ?_, ?_⟩
  · rintro _ x zone ⟨⟩ hs
    exact absurd (get?_tag_inj ht hs.tag) hn
  · rintro _ data ⟨⟩ -
    exact hk
  · rintro _ pairs ⟨⟩ -
    exact hk

theorem settled_binary_iff {data : String} (h : BinaryShape entries data) :
    Settled (object entries) ↔ Entries.keys entries ⊆ [tagKey, "data"] :=
  ⟨fun hs => hs.binary _ _ rfl h, settled_of_keys h.tag (by decide)⟩

theorem settled_groups_iff {pairs : List (Json × Json)} (h : GroupsShape entries pairs) :
    Settled (object entries) ↔ Entries.keys entries ⊆ [tagKey, "data"] :=
  ⟨fun hs => hs.groups _ _ rfl h, settled_of_keys h.tag (by decide)⟩

end

section

variable {P : Json → Prop} {entries : List (String × Json)}

theorem forall_reached_leaf {v : Json} (h : ∀ u, Reached u v → u = v) :
    (∀ u, Reached u v → P u) ↔ P v :=
  ⟨fun hp => hp v (.self v), fun hv u hu => h u hu ▸ hv⟩

theorem forall_reached_array {items : List Json} :
    (∀ u, Reached u (array items) → P u) ↔
      P (array items) ∧ ∀ v ∈ items, ∀ u, Reached u v → P u := by
  constructor
  · exact fun h => ⟨h _ (.self _), fun v hv u hu => h u (.item hv hu)⟩
  · rintro ⟨h, hi⟩ u hu
    cases hu with
    | self => exact h
    | item hv hu => exact hi _ hv u hu

theorem forall_reached_plain (hs : ¬ Special entries) :
    (∀ u, Reached u (object entries) → P u) ↔
      P (object entries) ∧ ∀ e ∈ entries, ∀ u, Reached u e.2 → P u := by
  constructor
  · exact fun h => ⟨h _ (.self _), fun e he u hu => h u (.entry hs he hu)⟩
  · rintro ⟨h, hi⟩ u hu
    cases hu with
    | self => exact h
    | entry _ he hu => exact hi _ he u hu
    | group hg => exact absurd (.groups hg) hs
    | reduction hg => exact absurd (.groups hg) hs

theorem settled_pairs_iff {pairs : List (Json × Json)} :
    (∀ u, Reached u (array (pairs.map ofPair)) → Settled u) ↔
      ∀ p ∈ pairs, (∀ u, Reached u p.1 → Settled u) ∧ ∀ u, Reached u p.2 → Settled u := by
  have ha (items : List Json) : Settled (array items) :=
    settled_of_not_object (by simp [asFloat?]) (by simp)
  rw [forall_reached_array, and_iff_right (ha _), List.forall_mem_map]
  exact forall₂_congr fun p _ => by
    rw [ofPair, forall_reached_array, and_iff_right (ha _), List.forall_mem_cons,
      List.forall_mem_singleton]

theorem forall_reached_special (hs : Special entries) (hn : ∀ pairs, ¬ GroupsShape entries pairs) :
    (∀ u, Reached u (object entries) → P u) ↔ P (object entries) := by
  apply forall_reached_leaf
  intro u hu
  cases hu with
  | self => rfl
  | entry h => exact absurd hs h
  | group hg => exact absurd hg (hn _)
  | reduction hg => exact absurd hg (hn _)

theorem forall_reached_groups {pairs : List (Json × Json)} (hs : GroupsShape entries pairs) :
    (∀ u, Reached u (object entries) → P u) ↔ P (object entries) ∧
      ∀ p ∈ pairs, (∀ u, Reached u p.1 → P u) ∧ ∀ u, Reached u p.2 → P u := by
  constructor
  · exact fun h => ⟨h _ (.self _), fun p hp =>
      ⟨fun u hu => h u (.group hs hp hu), fun u hu => h u (.reduction hs hp hu)⟩⟩
  · rintro ⟨h, hi⟩ u hu
    cases hu with
    | self => exact h
    | entry hn => exact absurd (.groups hs) hn
    | group hg hp hu => exact (hi _ (hg.unique hs ▸ hp)).1 u hu
    | reduction hg hp hu => exact (hi _ (hg.unique hs ▸ hp)).2 u hu

end

namespace Tidies

variable {f : Json → Json} (h : Tidies f) {entries : List (String × Json)}
include h

theorem time_eq_self_iff {x : Binary64} {zone : String} (hx : x.isFinite = true)
    (hs : Entries.Sorted entries) (ht : TimeShape entries x zone) :
    f (object entries) = object entries ↔ Settled (object entries) := by
  have hj : ofFloat x = float x := if_pos hx
  rw [settled_time_iff ht, h.time _ _ _ ht, object.injEq, hj]
  constructor
  · rintro rfl
    exact ⟨List.Subset.refl _, rfl⟩
  · rintro ⟨hk, he⟩
    refine (Entries.eq_of_keys hs (sorted_timeEntries _ zone) hk ?_).symm
    exact List.forall_mem_cons.mpr ⟨ht.tag, by simpa [he] using ht.zone⟩

theorem binary_eq_self_iff {data : String} (hs : Entries.Sorted entries)
    (hb : BinaryShape entries data) :
    f (object entries) = object entries ↔ Settled (object entries) := by
  rw [settled_binary_iff hb, h.binary _ _ hb, object.injEq]
  constructor
  · rintro rfl
    exact List.Subset.refl _
  · intro hk
    refine (Entries.eq_of_keys hs (sorted_binaryEntries data) hk ?_).symm
    exact List.forall_mem_cons.mpr ⟨hb.tag, by simpa using hb.payload⟩

theorem groups_eq_self_iff {pairs : List (Json × Json)} (hs : Entries.Sorted entries)
    (hg : GroupsShape entries pairs) :
    f (object entries) = object entries ↔ Settled (object entries) ∧
      f (.array (pairs.map Json.ofPair)) = .array (pairs.map Json.ofPair) := by
  rw [settled_groups_iff hg, h.groups _ _ hg, object.injEq]
  constructor
  · intro he
    refine ⟨by rw [← he]; exact List.Subset.refl _, ?_⟩
    have hd := hg.payload
    rw [← he] at hd
    exact Option.some.inj hd
  · rintro ⟨hk, he⟩
    rw [he]
    refine (Entries.eq_of_keys hs (sorted_groupsEntries _) hk ?_).symm
    exact List.forall_mem_cons.mpr ⟨hg.tag, by simpa using hg.payload⟩

theorem number_eq_self_iff {v : Json} {x : Binary64} (hx : v.asFloat? = some x) :
    f v = v ↔ ∀ u, Reached u v → Settled u := by
  have ho (es : List (String × Json)) : v ≠ object es := by
    rintro rfl
    cases hx
  have hr : ∀ u, Reached u v → u = v := by
    intro u hu
    cases hu with
    | self => rfl
    | item => cases hx
    | _ => exact absurd rfl (ho _)
  rw [forall_reached_leaf hr, h.number v x hx]
  constructor
  · intro he
    apply settled_of_not_object ?_ ho
    intro y hy
    rw [← Option.some.inj (hx.symm.trans hy), he]
  · exact fun hs => (hs.number x hx).symm

theorem eq_self_iff {v : Json} (hf : v.Finite) (hs : v.Sorted) :
    f v = v ↔ ∀ u, Reached u v → Settled u := by
  induction v using induct with
  | null =>
    rw [forall_reached_leaf (by rintro _ ⟨⟩; rfl)]
    exact iff_of_true h.null (settled_of_not_object (by simp [asFloat?]) (by simp))
  | bool b =>
    rw [forall_reached_leaf (by rintro _ ⟨⟩; rfl)]
    exact iff_of_true (h.bool b) (settled_of_not_object (by simp [asFloat?]) (by simp))
  | string s =>
    rw [forall_reached_leaf (by rintro _ ⟨⟩; rfl)]
    exact iff_of_true (h.string s) (settled_of_not_object (by simp [asFloat?]) (by simp))
  | int n => exact h.number_eq_self_iff rfl
  | float x => exact h.number_eq_self_iff rfl
  | array items ih =>
    cases hf with
    | array hf =>
    have hs := sorted_array.mp hs
    have hp : Settled (.array items) := settled_of_not_object (by simp [asFloat?]) (by simp)
    rw [forall_reached_array, h.array, array.injEq, map_eq_self_iff, and_iff_right hp]
    exact forall₂_congr fun v hv => ih v hv (hf v hv) (hs v hv)
  | object entries ih =>
    cases hf with
    | object hf =>
    obtain ⟨hk, hs⟩ := sorted_object.mp hs
    by_cases hp : Special entries
    · cases hp with
      | time ht =>
        obtain ⟨v, hv, hx⟩ := ht.seconds
        have hx := isFinite_of_asFloat? (hf _ (mem_of_lookup_eq_some hv)) hx
        rw [forall_reached_special (.time ht) fun _ hg =>
          absurd (get?_tag_inj ht.tag hg.tag) (by decide)]
        exact h.time_eq_self_iff hx hk ht
      | binary hb =>
        rw [forall_reached_special (.binary hb) fun _ hg =>
          absurd (get?_tag_inj hb.tag hg.tag) (by decide)]
        exact h.binary_eq_self_iff hk hb
      | groups hg =>
        have hd := mem_of_lookup_eq_some hg.payload
        rw [forall_reached_groups hg, h.groups_eq_self_iff hk hg, ← settled_pairs_iff]
        exact and_congr_right fun _ => ih _ hd (hf _ hd) (hs _ hd)
    · rw [forall_reached_plain hp, h.plain _ hp, object.injEq, mapValues_eq_self_iff,
        and_iff_right (settled_plain hp)]
      exact forall₂_congr fun e he => ih e he (hf e he) (hs e he)

end Tidies

end Json

namespace Datum

open Json (TimeShape BinaryShape GroupsShape Special Tidies Reached Settled)

theorem tidies_toJson_ofJson : Tidies fun v => (ofJson v).toJson where
  null := rfl
  bool _ := rfl
  string _ := rfl
  number v x hx := by rw [ofJson_eq_number_iff.mpr hx, toJson]
  array items := by
    rw [ofJson, toJson, ofItems_eq_map, itemsJson_eq_map, List.map_map]
    rfl
  time entries x zone ht := by
    rw [ofJson_object_of_recognised (recognised_of_time ht), toJson]
    rfl
  binary entries data hb := by
    obtain ⟨bytes, rfl, hr⟩ := recognised_of_binary hb
    rw [ofJson_object_of_recognised hr, toJson]
    rfl
  groups entries pairs hg := by
    rw [ofJson_object_of_recognised (recognised_of_groups hg), toJson, groupsJson_eq_map, ofJson,
      toJson, ofItems_eq_map, itemsJson_eq_map, List.map_map, List.map_map, List.map_map]
    rfl
  plain entries hs := by
    rw [ofJson_object_of_not_recognised fun d hd => hs (special_of_recognised hd), toJson,
      fieldsJson_eq_mapValues, Entries.mapValues, Entries.mapValues, List.map_map]
    rfl

/-- Reading data and writing it again changes numbers and special objects only; doing so twice is
doing it once, and a value stays as it is if and only if all that is reached in it is settled. -/
theorem toJson_ofJson_normalForm :
    Tidies (fun v => (ofJson v).toJson) ∧
      (∀ v : Json, (ofJson (ofJson v).toJson).toJson = (ofJson v).toJson) ∧
      ∀ v : Json, v.Finite → v.Sorted →
        ((ofJson v).toJson = v ↔ ∀ u, Reached u v → Settled u) :=
  ⟨tidies_toJson_ofJson, tidies_toJson_ofJson.idempotent,
    fun _ hf hs => tidies_toJson_ofJson.eq_self_iff hf hs⟩

theorem toJson_ofJson_normalForm_times :
    let v : Json := .array [.int 1, .object
      [("$reql_type$", .string "TIME"), ("epoch_time", .string "soon"), ("timezone", .string "Z")]]
    let w : Json := .object [("$reql_type$", .string "GROUPED_DATA"), ("data", .array [.array
      [.int 1, .object
        [("$reql_type$", .string "TIME"), ("epoch_time", .int 5), ("timezone", .string "Z")]]])]
    v.Finite ∧ v.Sorted ∧ (ofJson v).toJson = v ∧ (∀ u, Reached u v → Settled u) ∧
      w.Finite ∧ w.Sorted ∧ (ofJson w).toJson ≠ w := by
  intro v w
  have hone : (Json.int 1).Finite := .int (by decide) (by decide)
  have hvf : v.Finite := by
    refine .array (List.forall_mem_cons.mpr ⟨hone, List.forall_mem_singleton.mpr (.object ?_)⟩)
    simpa using ⟨.string _, .string _, .string _⟩
  have htime (u : Json) (hu : u.Sorted) : (Json.object (Json.timeEntries u "Z")).Sorted := by
    refine Json.sorted_object.mpr ⟨Json.sorted_timeEntries u "Z", ?_⟩
    simp [Json.timeEntries, Json.Sorted, hu]
  have hvs : v.Sorted := by
    refine Json.sorted_array.mpr (List.forall_mem_cons.mpr ⟨trivial, ?_⟩)
    exact List.forall_mem_singleton.mpr (htime (.string "soon") trivial)
  have hv : (ofJson v).toJson = v := by
    show Json.array [numberJson (Binary64.ofInt 1), _] = v
    rw [numberJson_ofInt (by decide)]
    rfl
  have hwf : w.Finite := by
    refine .object (List.forall_mem_cons.mpr ⟨.string _, List.forall_mem_singleton.mpr (.array ?_)⟩)
    refine List.forall_mem_singleton.mpr (.array (List.forall_mem_cons.mpr ⟨hone, ?_⟩))
    refine List.forall_mem_singleton.mpr (.object ?_)
    simpa using ⟨.string _, .int (by decide) (by decide), .string _⟩
  have hws : w.Sorted := by
    refine Json.sorted_object.mpr ⟨Json.sorted_groupsEntries _, ?_⟩
    refine List.forall_mem_cons.mpr ⟨trivial, ?_⟩
    refine List.forall_mem_singleton.mpr (Json.sorted_array.mpr (List.forall_mem_singleton.mpr ?_))
    refine Json.sorted_array.mpr (List.forall_mem_cons.mpr ⟨trivial, ?_⟩)
    exact List.forall_mem_singleton.mpr (htime (.int 5) trivial)
  refine ⟨hvf, hvs, hv, (toJson_ofJson_normalForm.2.2 v hvf hvs).mp hv, hwf, hws, ?_⟩
  intro hw
  let time := Json.timeEntries (.int 5) "Z"
  have hg : GroupsShape _ [(.int 1, .object time)] := Json.groupsShape_groupsEntries _
  have hr : Reached (.object time) w := .reduction hg List.mem_cons_self (.self _)
  have hs := (toJson_ofJson_normalForm.2.2 w hwf hws).mp hw _ hr
  have ht := (hs.time _ _ _ rfl (Json.timeShape_timeEntries rfl "Z")).2
  cases Option.some.inj ht

end Datum

end ReqlDriver
