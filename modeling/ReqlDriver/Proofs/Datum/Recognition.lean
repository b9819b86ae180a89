import ReqlDriver.Proofs.Datum.Parts

namespace ReqlDriver.Datum

def ofGroup (p : Datum × Datum) : Datum := array [p.1, p.2]

inductive Recognised (fields : List (String × Datum)) : Datum → Prop
  | time {x : Binary64} {zone : String} : Entries.get? fields tagKey = some (string "TIME") →
      Entries.get? fields "epoch_time" = some (number x) →
      Entries.get? fields "timezone" = some (string zone) → Recognised fields (time ⟨x, zone⟩)
  | binary {data : String} {bytes : List UInt8} :
      Entries.get? fields tagKey = some (string "BINARY") →
      Entries.get? fields "data" = some (string data) → Base64.decode data = some bytes →
      Recognised fields (binary bytes)
  | grouped {groups : List (Datum × Datum)} :
      Entries.get? fields tagKey = some (string "GROUPED_DATA") →
      Entries.get? fields "data" = some (array (groups.map ofGroup)) →
      Recognised fields (grouped groups)

theorem asString?_eq_some_iff {d : Datum} {s : String} : d.asString? = some s ↔ d = string s := by
  cases d <;> simp [asString?]

theorem asNumber?_eq_some_iff {d : Datum} {x : Binary64} :
    d.asNumber? = some x ↔ d = number x := by
  cases d <;> simp [asNumber?]

theorem asArray?_eq_some_iff {d : Datum} {items : List Datum} :
    d.asArray? = some items ↔ d = array items := by
  cases d <;> simp [asArray?]

theorem pair?_eq_some_iff {d : Datum} {p : Datum × Datum} : pair? d = some p ↔ d = ofGroup p := by
  unfold pair? ofGroup
  split
  · simp [Prod.ext_iff, eq_comm]
  · rename_i hn
    constructor
    · intro h
      cases h
    · intro h
      exact absurd h (hn p.1 p.2)

theorem mapM_pair?_eq_some_iff {items : List Datum} {groups : List (Datum × Datum)} :
    items.mapM pair? = some groups ↔ items = groups.map ofGroup := by
  induction items generalizing groups with
  | nil => cases groups <;> simp
  | cons d r ih =>
    cases groups with
    | nil => simp [Option.bind_eq_some_iff]
    | cons p ps => simp [Option.bind_eq_some_iff, pair?_eq_some_iff, ih]

theorem timeOf?_eq_some_iff {fields : List (String × Datum)} {d : Datum} :
    timeOf? fields = some d ↔ ∃ x zone, Entries.get? fields "epoch_time" = some (number x) ∧
      Entries.get? fields "timezone" = some (string zone) ∧ d = time ⟨x, zone⟩ := by
  simp only [timeOf?, Option.bind_eq_bind, Option.bind_eq_some_iff, asNumber?_eq_some_iff,
    asString?_eq_some_iff, Option.some.injEq]
  constructor
  · rintro ⟨_, hx, x, rfl, _, hz, zone, rfl, rfl⟩
    exact ⟨x, zone, hx, hz, rfl⟩
  · rintro ⟨x, zone, hx, hz, rfl⟩
    exact ⟨_, hx, x, rfl, _, hz, zone, rfl, rfl⟩

theorem binaryOf?_eq_some_iff {fields : List (String × Datum)} {d : Datum} :
    binaryOf? fields = some d ↔ ∃ data bytes, Entries.get? fields "data" = some (string data) ∧
      Base64.decode data = some bytes ∧ d = binary bytes := by
  simp only [binaryOf?, Option.bind_eq_bind, Option.bind_eq_some_iff, asString?_eq_some_iff,
    Option.map_eq_some_iff]
  constructor
  · rintro ⟨_, hd, data, rfl, bytes, hb, rfl⟩
    exact ⟨data, bytes, hd, hb, rfl⟩
  · rintro ⟨data, bytes, hd, hb, rfl⟩
    exact ⟨_, hd, data, rfl, bytes, hb, rfl⟩

theorem groupedOf?_eq_some_iff {fields : List (String × Datum)} {d : Datum} :
    groupedOf? fields = some d ↔ ∃ groups,
      Entries.get? fields "data" = some (array (groups.map ofGroup)) ∧ d = grouped groups := by
  simp only [groupedOf?, Option.bind_eq_bind, Option.bind_eq_some_iff, asArray?_eq_some_iff,
    Option.map_eq_some_iff, mapM_pair?_eq_some_iff]
  constructor
  · rintro ⟨_, hd, _, rfl, groups, rfl, rfl⟩
    exact ⟨groups, hd, rfl⟩
  · rintro ⟨groups, hd, rfl⟩
    exact ⟨_, hd, _, rfl, groups, rfl, rfl⟩

theorem tag_eq_some_iff {fields : List (String × Datum)} {tag : String} :
    (Entries.get? fields tagKey).bind asString? = some tag ↔
      Entries.get? fields tagKey = some (string tag) := by
  simp [Option.bind_eq_some_iff, asString?_eq_some_iff]

theorem recognise?_eq_some_iff {fields : List (String × Datum)} {d : Datum} :
    recognise? fields = some d ↔ Recognised fields d := by
  constructor
  · intro h
    unfold recognise? at h
    split at h
    · rename_i ht
      obtain ⟨x, zone, hx, hz, rfl⟩ := timeOf?_eq_some_iff.mp h
      exact .time (tag_eq_some_iff.mp ht) hx hz
    · rename_i ht
      obtain ⟨data, bytes, hd, hb, rfl⟩ := binaryOf?_eq_some_iff.mp h
      exact .binary (tag_eq_some_iff.mp ht) hd hb
    · rename_i ht
      obtain ⟨groups, hd, rfl⟩ := groupedOf?_eq_some_iff.mp h
      exact .grouped (tag_eq_some_iff.mp ht) hd
    · cases h
  · intro h
    cases h with
    | time ht hx hz =>
      rw [recognise?, tag_eq_some_iff.mpr ht]
      exact timeOf?_eq_some_iff.mpr ⟨_, _, hx, hz, rfl⟩
    | binary ht hd hb =>
      rw [recognise?, tag_eq_some_iff.mpr ht]
      exact binaryOf?_eq_some_iff.mpr ⟨_, _, hd, hb, rfl⟩
    | grouped ht hd =>
      rw [recognise?, tag_eq_some_iff.mpr ht]
      exact groupedOf?_eq_some_iff.mpr ⟨_, hd, rfl⟩

theorem recognise?_eq_none_iff {fields : List (String × Datum)} :
    recognise? fields = none ↔ ∀ d, ¬ Recognised fields d := by
  rw [Option.eq_none_iff_forall_ne_some]
  exact forall_congr' fun d => not_congr recognise?_eq_some_iff

def isPair (d : Datum) : Bool := (pair? d).isSome

theorem isPair_array (items : List Datum) : isPair (array items) = (items.length == 2) := by
  match items with
  | [] => rfl
  | [_] => rfl
  | [_, _] => rfl
  | _ :: _ :: _ :: _ => simp [isPair, pair?]

theorem all_isPair_iff {items : List Datum} :
    items.all isPair = true ↔ ∃ groups : List (Datum × Datum), items = groups.map ofGroup := by
  constructor
  · intro h
    induction items with
    | nil => exact ⟨[], rfl⟩
    | cons d r ih =>
      rw [List.all_cons, Bool.and_eq_true] at h
      obtain ⟨p, hp⟩ := Option.isSome_iff_exists.mp h.1
      obtain ⟨groups, rfl⟩ := ih h.2
      exact ⟨p :: groups, by rw [pair?_eq_some_iff.mp hp, List.map_cons]⟩
  · rintro ⟨groups, rfl⟩
    simp [isPair, pair?, ofGroup]

theorem length_eq_of_eqItems {xs ys : List Datum} (h : eqItems xs ys = true) :
    xs.length = ys.length := by
  induction xs generalizing ys with
  | nil => cases ys <;> simp [eqItems] at h ⊢
  | cons x xs ih =>
    cases ys with
    | nil => simp [eqItems] at h
    | cons y ys =>
      simp only [eqItems, Bool.and_eq_true] at h
      rw [List.length_cons, List.length_cons, ih h.2]

theorem isPair_of_eq {x y : Datum} (h : x.eq y = true) : isPair x = isPair y := by
  unfold eq at h
  split at h
  case h_5 xs ys => rw [isPair_array, isPair_array, length_eq_of_eqItems h]
  case h_10 => cases h
  all_goals rfl

theorem all_isPair_of_eqItems {xs ys : List Datum} (h : eqItems xs ys = true) :
    xs.all isPair = ys.all isPair := by
  induction xs generalizing ys with
  | nil => cases ys <;> simp [eqItems] at h ⊢
  | cons x xs ih =>
    cases ys with
    | nil => simp [eqItems] at h
    | cons y ys =>
      simp only [eqItems, Bool.and_eq_true] at h
      rw [List.all_cons, List.all_cons, isPair_of_eq h.1, ih h.2]

structure Alike (a b : Option Datum) : Prop where
  text : a.bind asString? = b.bind asString?
  number : (a.bind asNumber?).isSome = (b.bind asNumber?).isSome
  pairs : (a.bind asArray?).any (·.all isPair) = (b.bind asArray?).any (·.all isPair)

theorem Alike.symm {a b : Option Datum} (h : Alike a b) : Alike b a :=
  ⟨h.text.symm, h.number.symm, h.pairs.symm⟩

theorem alike_of_eq {x y : Datum} (h : x.eq y = true) : Alike (some x) (some y) := by
  unfold eq at h
  split at h
  case h_4 s t => exact ⟨congrArg some (beq_iff_eq.mp h), rfl, rfl⟩
  case h_5 xs ys => exact ⟨rfl, rfl, all_isPair_of_eqItems h⟩
  case h_10 => cases h
  all_goals exact ⟨rfl, rfl, rfl⟩

theorem alike_get? {es fs : List (String × Datum)} (h : eqFields es fs = true) (key : String) :
    Alike (Entries.get? es key) (Entries.get? fs key) := by
  induction es generalizing fs with
  | nil =>
    cases fs with
    | nil => exact ⟨rfl, rfl, rfl⟩
    | cons f fs => simp [eqFields] at h
  | cons e es ih =>
    cases fs with
    | nil => simp [eqFields] at h
    | cons f fs =>
      obtain ⟨k, x⟩ := e
      obtain ⟨l, y⟩ := f
      simp only [eqFields, Bool.and_eq_true, beq_iff_eq] at h
      obtain ⟨⟨rfl, hx⟩, hr⟩ := h
      simp only [Entries.get?, List.lookup_cons] at ih ⊢
      cases key == k with
      | true => exact alike_of_eq hx
      | false => exact ih hr

section

variable {a b : Option Datum}

theorem Alike.string (h : Alike a b) {s : String} (ha : a = some (string s)) :
    b = some (string s) := by
  have hb : b.bind asString? = some s := by
    rw [← h.text, ha]
    rfl
  simpa [Option.bind_eq_some_iff, asString?_eq_some_iff] using hb

theorem Alike.exists_number (h : Alike a b) {x : Binary64} (ha : a = some (.number x)) :
    ∃ y, b = some (.number y) := by
  have hb : (b.bind asNumber?).isSome = true := by
    rw [← h.number, ha]
    rfl
  simpa [Option.isSome_iff_exists, Option.bind_eq_some_iff, asNumber?_eq_some_iff] using hb

theorem Alike.exists_groups (h : Alike a b) {groups : List (Datum × Datum)}
    (ha : a = some (array (groups.map ofGroup))) :
    ∃ others : List (Datum × Datum), b = some (array (others.map ofGroup)) := by
  have hb : (b.bind asArray?).any (·.all isPair) = true := by
    rw [← h.pairs, ha]
    exact all_isPair_iff.mpr ⟨groups, rfl⟩
  cases hi : b.bind asArray? with
  | none =>
    rw [hi] at hb
    cases hb
  | some items =>
    rw [hi] at hb
    obtain ⟨others, rfl⟩ := all_isPair_iff.mp hb
    refine ⟨others, ?_⟩
    simpa [Option.bind_eq_some_iff, asArray?_eq_some_iff] using hi

end

theorem Recognised.of_alike {es fs : List (String × Datum)}
    (h : ∀ key, Alike (Entries.get? es key) (Entries.get? fs key)) {d : Datum}
    (hd : Recognised es d) : ∃ e, Recognised fs e := by
  cases hd with
  | time ht hx hz =>
    obtain ⟨y, hy⟩ := (h _).exists_number hx
    exact ⟨_, .time ((h _).string ht) hy ((h _).string hz)⟩
  | binary ht hd hb => exact ⟨_, .binary ((h _).string ht) ((h _).string hd) hb⟩
  | grouped ht hd =>
    obtain ⟨others, ho⟩ := (h _).exists_groups hd
    exact ⟨_, .grouped ((h _).string ht) ho⟩

theorem exists_recognised_of_eqFields {es fs : List (String × Datum)} (h : eqFields es fs = true) :
    (∃ d, Recognised es d) ↔ ∃ d, Recognised fs d :=
  ⟨fun ⟨_, hd⟩ => hd.of_alike (alike_get? h), fun ⟨_, hd⟩ => hd.of_alike fun key =>
    (alike_get? h key).symm⟩

end ReqlDriver.Datum
