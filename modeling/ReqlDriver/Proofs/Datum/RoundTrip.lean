import ReqlDriver.Proofs.Datum.Number
import ReqlDriver.Proofs.Datum.Recognition
import ReqlDriver.Proofs.Keys
import ReqlDriver.Proofs.Number.Rounding
import ReqlDriver.Proofs.Text.Base64

namespace ReqlDriver

namespace Binary64

theorem eq_of_isFinite {x : Binary64} (h : x.isFinite = true) : x.eq x = true := by
  cases x with
  | finite s u hf => simp [eq]
  | _ => cases h

end Binary64

inductive Json.Finite : Json → Prop
  | null : Finite null
  | bool (b : Bool) : Finite (bool b)
  | int {n : Int} : Width.int64.least ≤ n → n ≤ Width.uint64.greatest → Finite (int n)
  | float {x : Binary64} : x.isFinite = true → Finite (float x)
  | string (s : String) : Finite (string s)
  | array {items : List Json} : (∀ v ∈ items, Finite v) → Finite (array items)
  | object {entries : List (String × Json)} : (∀ e ∈ entries, Finite e.2) →
      Finite (object entries)

namespace Datum

open Binary64

def Returns (x : Binary64) (v : Json) : Prop := ∃ y, v.asFloat? = some y ∧ y.eq x = true

theorem returns_ofFloat_iff (x : Binary64) : Returns x (Json.ofFloat x) ↔ x.isFinite = true := by
  cases hf : x.isFinite with
  | false => simp [Returns, Json.ofFloat, hf, Json.asFloat?]
  | true =>
    simp only [iff_true]
    exact ⟨x, by simp [Json.ofFloat, hf, Json.asFloat?], eq_of_isFinite hf⟩

theorem returns_numberJson_iff (x : Binary64) : Returns x (numberJson x) ↔ x.isFinite = true := by
  cases hf : x.isFinite with
  | false => simp [Returns, numberJson_of_not_finite hf, Json.asFloat?]
  | true =>
    simp only [iff_true]
    by_cases hz : x = zero true
    · subst hz
      have hj : numberJson (zero true) = .int 0 :=
        numberJson_small (by simp [zero, toInt?, signed]) (twoTo_pos 53)
      have hi : Binary64.ofInt 0 = zero false := by
        rw [ofInt_eq (show (0 : Int).natAbs < twoTo 53 from twoTo_pos 53)]
        exact finite_eq rfl (by rw [Int.natAbs_zero, Nat.zero_mul])
      rw [hj]
      exact ⟨zero false, congrArg some hi, by simp [zero, Binary64.eq, signed]⟩
    · exact ⟨x, (survives_iff x).mpr ⟨hf, hz⟩, eq_of_isFinite hf⟩

def Sound : Datum → Prop
  | number x => Returns x (numberJson x)
  | time t => Returns t.seconds (Json.ofFloat t.seconds)
  | object fields => ∀ d, ¬ Recognised fields d
  | _ => True

theorem ofJson_toJson_array (items : List Datum) :
    ofJson (array items).toJson = array (items.map fun d => ofJson d.toJson) := by
  rw [toJson, itemsJson_eq_map, ofJson, ofItems_eq_map, List.map_map]
  rfl

example : (ofJson (array [null, boolean true]).toJson).eq (array [null, boolean true]) = true := by
  cbv

theorem ofJson_of_asFloat? {v : Json} {x : Binary64} (h : v.asFloat? = some x) :
    ofJson v = number x := by
  cases v with
  | int n => exact congrArg number (Option.some.inj h)
  | float y => exact congrArg number (Option.some.inj h)
  | _ => cases h

theorem eq_number_iff (x y : Binary64) : (number y).eq (number x) = y.eq x := by
  rw [eq]

theorem null_eq_number (x : Binary64) : null.eq (number x) = false := by
  simp [eq]

theorem asFloat?_numberJson_eq_none {x : Binary64} (h : (numberJson x).asFloat? = none) :
    numberJson x = .null := by
  rcases numberJson_cases x with hn | ⟨y, hy, he⟩
  · exact hn
  · rw [← he, show (numberJson y).asFloat? = some y from hy] at h
    cases h

theorem eq_ofJson_number (x : Binary64) :
    (ofJson (number x).toJson).eq (number x) = true ↔ Sound (number x) := by
  rw [toJson]
  cases hv : (numberJson x).asFloat? with
  | none => simp [asFloat?_numberJson_eq_none hv, ofJson, null_eq_number, Sound, Returns, Json.asFloat?]
  | some y => simp [ofJson_of_asFloat? hv, eq_number_iff, Sound, Returns, hv]

theorem ofJson_toJson_object (fields : List (String × Datum)) :
    ofJson (object fields).toJson =
      ofJsonFields (Entries.mapValues (fun d => ofJson d.toJson) fields) := by
  rw [toJson, fieldsJson_eq_mapValues, ofJson, ofEntries_eq_mapValues, Entries.mapValues,
    Entries.mapValues, List.map_map]
  rfl

theorem ofJsonFields_of_recognised {fields : List (String × Datum)} {d : Datum}
    (h : Recognised fields d) : ofJsonFields fields = d := by
  rw [ofJsonFields, recognise?_eq_some_iff.mpr h]
  rfl

theorem ofJsonFields_of_not_recognised {fields : List (String × Datum)}
    (h : ∀ d, ¬ Recognised fields d) : ofJsonFields fields = object fields := by
  rw [ofJsonFields, recognise?_eq_none_iff.mpr h]
  rfl

theorem ofJson_toJson_grouped (groups : List (Datum × Datum)) :
    ofJson (grouped groups).toJson =
      grouped (groups.map fun p => (ofJson p.1.toJson, ofJson p.2.toJson)) := by
  have hd : ofJson (.array (groupsJson groups)) =
      array ((groups.map fun p => (ofJson p.1.toJson, ofJson p.2.toJson)).map ofGroup) := by
    rw [groupsJson_eq_map, ofJson, ofItems_eq_map, List.map_map, List.map_map]
    congr 1
  rw [toJson, ofJson]
  apply ofJsonFields_of_recognised
  exact .grouped rfl (congrArg some hd)

theorem ofJson_toJson_binary (bytes : List UInt8) :
    ofJson (binary bytes).toJson = binary bytes := by
  rw [toJson, ofJson]
  apply ofJsonFields_of_recognised
  exact .binary rfl rfl (Base64.decode_eq_some_iff.mpr rfl)

theorem ofJson_toJson_time {t : Timestamp} (h : t.seconds.isFinite = true) :
    ofJson (time t).toJson = time t := by
  have hj : ofJson (Json.ofFloat t.seconds) = number t.seconds := by
    simp [Json.ofFloat, h, ofJson]
  rw [toJson, ofJson]
  apply ofJsonFields_of_recognised
  exact .time rfl (congrArg some hj) rfl

theorem ofJson_toJson_time_of_not_finite {t : Timestamp} (h : t.seconds.isFinite = false) :
    ∃ fields, ofJson (time t).toJson = object fields := by
  have hj : ofJson (Json.ofFloat t.seconds) = null := by
    simp [Json.ofFloat, h, ofJson]
  rw [toJson, ofJson, ofJsonFields_of_not_recognised]
  · exact ⟨_, rfl⟩
  intro d hd
  cases hd with
  | time _ hx _ =>
    have hn : some (ofJson (Json.ofFloat t.seconds)) = _ := hx
    rw [hj] at hn
    cases hn
  | binary ht =>
    have hn : some (string "TIME") = some (string "BINARY") := ht
    simp at hn
  | grouped ht =>
    have hn : some (string "TIME") = some (string "GROUPED_DATA") := ht
    simp at hn

theorem eq_ofJson_time (t : Timestamp) :
    (ofJson (time t).toJson).eq (time t) = true ↔ Sound (time t) := by
  rw [Sound, returns_ofFloat_iff]
  cases hf : t.seconds.isFinite with
  | true => simp [ofJson_toJson_time hf, eq, eq_of_isFinite hf]
  | false =>
    obtain ⟨fields, he⟩ := ofJson_toJson_time_of_not_finite hf
    simp [he, eq]

theorem eq_ofJsonFields_iff {es fields : List (String × Datum)} :
    (ofJsonFields es).eq (object fields) = true ↔
      eqFields es fields = true ∧ ∀ d, ¬ Recognised fields d := by
  have hnone (h : eqFields es fields = true) :
      (∀ d, ¬ Recognised es d) ↔ ∀ d, ¬ Recognised fields d := by
    rw [← not_exists, ← not_exists, exists_recognised_of_eqFields h]
  constructor
  · intro h
    have hr : ∀ d, ¬ Recognised es d := by
      intro d hd
      rw [ofJsonFields_of_recognised hd] at h
      cases hd <;> simp [eq] at h
    rw [ofJsonFields_of_not_recognised hr, eq] at h
    exact ⟨h, (hnone h).mp hr⟩
  · rintro ⟨h, hr⟩
    rw [ofJsonFields_of_not_recognised ((hnone h).mpr hr), eq]
    exact h

theorem eq_ofJson_toJson_iff (d : Datum) :
    (ofJson d.toJson).eq d = true ↔ ∀ e, Part e d → Sound e := by
  induction d using induct with
  | null =>
    rw [forall_part_leaf (by rintro _ ⟨⟩; rfl)]
    simp [toJson, ofJson, eq, Sound]
  | boolean b =>
    rw [forall_part_leaf (by rintro _ ⟨⟩; rfl)]
    simp [toJson, ofJson, eq, Sound]
  | number x =>
    rw [forall_part_leaf (by rintro _ ⟨⟩; rfl)]
    exact eq_ofJson_number x
  | string s =>
    rw [forall_part_leaf (by rintro _ ⟨⟩; rfl)]
    simp [toJson, ofJson, eq, Sound]
  | array items ih =>
    rw [ofJson_toJson_array, eq, eqItems_map_iff, forall_part_array]
    simp only [Sound, true_and]
    exact forall₂_congr ih
  | object fields ih =>
    rw [ofJson_toJson_object, eq_ofJsonFields_iff, eqFields_mapValues_iff, forall_part_object,
      and_comm]
    exact and_congr_right fun _ => forall₂_congr ih
  | time t =>
    rw [forall_part_leaf (by rintro _ ⟨⟩; rfl)]
    exact eq_ofJson_time t
  | binary bytes =>
    rw [forall_part_leaf (by rintro _ ⟨⟩; rfl), ofJson_toJson_binary]
    simp [eq, Sound]
  | grouped groups ih =>
    rw [ofJson_toJson_grouped, eq, eqGroups_map_iff fun d => ofJson d.toJson, forall_part_grouped]
    simp only [Sound, true_and]
    exact forall₂_congr fun p hp => and_congr (ih p hp).1 (ih p hp).2

theorem sound_number_iff (x : Binary64) : Sound (number x) ↔ x.isFinite = true :=
  returns_numberJson_iff x

theorem sound_recognised {fields : List (String × Datum)} {d : Datum} (h : Recognised fields d)
    (hf : ∀ f ∈ fields, ∀ e, Part e f.2 → Sound e) : ∀ e, Part e d → Sound e := by
  have hget {key : String} {d : Datum} (hk : Entries.get? fields key = some d) :
      ∀ e, Part e d → Sound e := hf (key, d) (mem_of_lookup_eq_some hk)
  cases h with
  | time _ hx _ =>
    rw [forall_part_leaf (by rintro _ ⟨⟩; rfl), Sound, returns_ofFloat_iff]
    exact (sound_number_iff _).mp (hget hx _ (.self _))
  | binary =>
    rw [forall_part_leaf (by rintro _ ⟨⟩; rfl)]
    trivial
  | grouped _ hd =>
    have hg := (forall_part_array.mp (hget hd)).2
    refine forall_part_grouped.mpr ⟨trivial, ?_⟩
    intro p hp
    have hp := (forall_part_array.mp (hg (ofGroup p) (List.mem_map_of_mem hp))).2
    exact ⟨hp p.1 (by simp), hp p.2 (by simp)⟩

theorem sound_ofJson {v : Json} (h : v.Finite) : ∀ e, Part e (ofJson v) → Sound e := by
  induction h with
  | null => exact (forall_part_leaf (by rintro _ ⟨⟩; rfl)).mpr trivial
  | bool b => exact (forall_part_leaf (by rintro _ ⟨⟩; rfl)).mpr trivial
  | string s => exact (forall_part_leaf (by rintro _ ⟨⟩; rfl)).mpr trivial
  | int hl hg =>
    rw [ofJson, ofInt, forall_part_leaf (by rintro _ ⟨⟩; rfl)]
    exact (sound_number_iff _).mpr (isFinite_ofInt hl hg)
  | float hx =>
    exact (forall_part_leaf (by rintro _ ⟨⟩; rfl)).mpr ((sound_number_iff _).mpr hx)
  | array hi ih =>
    rw [ofJson, ofItems_eq_map, forall_part_array]
    exact ⟨trivial, by simpa using ih⟩
  | object he ih =>
    rename_i entries
    have hf : ∀ f ∈ Entries.mapValues ofJson entries, ∀ e, Part e f.2 → Sound e := by
      intro f hf
      obtain ⟨e, he, rfl⟩ := List.mem_map.mp hf
      exact ih e he
    rw [ofJson, ofEntries_eq_mapValues]
    by_cases hr : ∃ d, Recognised (Entries.mapValues ofJson entries) d
    · obtain ⟨d, hd⟩ := hr
      rw [ofJsonFields_of_recognised hd]
      exact sound_recognised hd hf
    · have hn := not_exists.mp hr
      rw [ofJsonFields_of_not_recognised hn]
      exact forall_part_object.mpr ⟨hn, hf⟩

structure NumbersReturn (d : Datum) : Prop where
  number : ∀ x, Part (.number x) d → Returns x (numberJson x)
  time : ∀ t, Part (.time t) d → Returns t.seconds (Json.ofFloat t.seconds)

def Unambiguous (d : Datum) : Prop :=
  ∀ fields, Part (object fields) d → ∀ e, ¬ Recognised fields e

theorem forall_sound_iff {d : Datum} :
    (∀ e, Part e d → Sound e) ↔ NumbersReturn d ∧ Unambiguous d := by
  constructor
  · exact fun h => ⟨⟨fun x => h (.number x), fun t => h (.time t)⟩, fun fields => h (object fields)⟩
  · rintro ⟨hn, hu⟩ e he
    cases e with
    | number x => exact hn.number x he
    | time t => exact hn.time t he
    | object fields => exact hu fields he
    | _ => trivial

/-- A datum comes back from the wire if and only if its numbers do and none of its objects can be
taken for a time, binary data or groups. Numbers come back if they are finite; the others are null
on the wire. All that is ever read from JSON comes back. -/
theorem eq_ofJson_toJson_iff_returns :
    (∀ d : Datum, (ofJson d.toJson).eq d = true ↔ NumbersReturn d ∧ Unambiguous d) ∧
      (∀ x, (Returns x (numberJson x) ↔ x.isFinite = true) ∧
        (Returns x (Json.ofFloat x) ↔ x.isFinite = true) ∧
        (x.isFinite = false → numberJson x = .null ∧ Json.ofFloat x = .null)) ∧
      ∀ v : Json, v.Finite → NumbersReturn (ofJson v) ∧ Unambiguous (ofJson v) := by
  refine ⟨?_, ?_, fun v hv => forall_sound_iff.mp (sound_ofJson hv)⟩
  · exact fun d => (eq_ofJson_toJson_iff d).trans forall_sound_iff
  · refine fun x => ⟨returns_numberJson_iff x, returns_ofFloat_iff x, ?_⟩
    exact fun hx => ⟨numberJson_of_not_finite hx, by simp [Json.ofFloat, hx]⟩

theorem eq_ofJson_toJson_iff_returns_grouped :
    let v : Json := .object [("$reql_type$", .string "GROUPED_DATA"), ("data", .array
      [.array [.int 1, .object [("$reql_type$", .string "GEOMETRY"), ("data", .string "AQID")]]])]
    v.Finite ∧ (ofJson (ofJson v).toJson).eq (ofJson v) = true ∧
      ¬ (ofJson (object [("$reql_type$", string "BINARY"), ("data", string "AQID")]).toJson).eq
        (object [("$reql_type$", string "BINARY"), ("data", string "AQID")]) = true := by
  intro v
  have hv : v.Finite := by
    refine .object (List.forall_mem_cons.mpr ⟨.string _, List.forall_mem_singleton.mpr ?_⟩)
    refine .array (List.forall_mem_singleton.mpr (.array ?_))
    refine List.forall_mem_cons.mpr ⟨.int (by decide) (by decide), ?_⟩
    exact List.forall_mem_singleton.mpr (.object (by simpa using ⟨.string _, .string _⟩))
  refine ⟨hv, ?_, ?_⟩
  · apply (eq_ofJson_toJson_iff_returns.1 _).mpr
    exact eq_ofJson_toJson_iff_returns.2.2 v hv
  · intro h
    have hu := ((eq_ofJson_toJson_iff_returns.1 _).mp h).2
    have hd : Base64.decode "AQID" = some [1, 2, 3] := Base64.decode_eq_some_iff.mpr (by decide)
    exact hu _ (.self _) _ (.binary rfl rfl hd)

end Datum

end ReqlDriver
