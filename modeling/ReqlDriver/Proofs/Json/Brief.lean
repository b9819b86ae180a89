import ReqlDriver.Proofs.Datum.NormalForm

namespace ReqlDriver.Json

/-- An operation without its arguments, where there are none. -/
def shorten : List Json → List Json
  | [int n, array []] => [int n]
  | items => items

mutual

def brief : Json → Json
  | array items => array (shorten (briefItems items))
  | object entries => object (briefEntries entries)
  | v => v

def briefItems : List Json → List Json
  | [] => []
  | v :: r => brief v :: briefItems r

def briefEntries : List (String × Json) → List (String × Json)
  | [] => []
  | (k, v) :: r => (k, brief v) :: briefEntries r

end

theorem brief_array (items : List Json) :
    brief (array items) = array (shorten (items.map brief)) := by
  have h : briefItems items = items.map brief := by
    induction items with
    | nil => rfl
    | cons v r ih => rw [briefItems, ih, List.map_cons]
  rw [brief, h]

theorem brief_object (entries : List (String × Json)) :
    brief (object entries) = object (Entries.mapValues brief entries) := by
  have h : briefEntries entries = Entries.mapValues brief entries := by
    induction entries with
    | nil => rfl
    | cons e r ih => rw [briefEntries, ih, Entries.mapValues_cons]
  rw [brief, h]

theorem shorten_cases (items : List Json) :
    (∃ n, items = [int n, array []] ∧ shorten items = [int n]) ∨ shorten items = items := by
  unfold shorten
  split
  · exact .inl ⟨_, rfl, rfl⟩
  · exact .inr rfl

theorem shorten_inj {xs ys : List Json} (hl : xs.length = ys.length)
    (h : shorten xs = shorten ys) : xs = ys := by
  rcases shorten_cases xs with ⟨m, rfl, hx⟩ | hx <;> rcases shorten_cases ys with ⟨n, rfl, hy⟩ | hy
  · rw [hx, hy, List.cons.injEq] at h
    rw [h.1]
  · rw [hx, hy] at h
    simp [← h] at hl
  · rw [hx, hy] at h
    simp [h] at hl
  · rwa [hx, hy] at h

theorem brief_array_inj {xs ys : List Json} (hl : xs.length = ys.length) :
    brief (array xs) = brief (array ys) ↔ xs.map brief = ys.map brief := by
  rw [brief_array, brief_array, array.injEq]
  exact ⟨shorten_inj (by simpa using hl), congrArg shorten⟩

mutual

def spread : Json → Nat
  | array items => spreadItems items
  | _ => 1

def spreadItems : List Json → Nat
  | [] => 0
  | v :: r => spread v + spreadItems r

end

theorem spread_shorten (items : List Json) :
    spread (array (shorten items)) = spread (array items) := by
  rcases shorten_cases items with ⟨n, rfl, h⟩ | h
  · rw [h]
    rfl
  · rw [h]

theorem spread_map {f : Json → Json} {items : List Json}
    (h : ∀ v ∈ items, spread (f v) = spread v) :
    spread (array (items.map f)) = spread (array items) := by
  rw [spread, spread]
  induction items with
  | nil => rfl
  | cons v r ih =>
    obtain ⟨hv, hr⟩ := List.forall_mem_cons.mp h
    rw [List.map_cons, spreadItems, spreadItems, hv, ih hr]

theorem spreadItems_le_map {f : Json → Json} {items : List Json}
    (h : ∀ v ∈ items, spread v ≤ spread (f v)) :
    spreadItems items ≤ spreadItems (items.map f) := by
  induction items with
  | nil => exact Nat.le_refl 0
  | cons v r ih =>
    obtain ⟨hv, hr⟩ := List.forall_mem_cons.mp h
    exact Nat.add_le_add hv (ih hr)

theorem spread_brief (v : Json) : spread (brief v) = spread v := by
  induction v using induct with
  | array items ih => rw [brief_array, spread_shorten, spread_map ih]
  | _ => rfl

inductive Arrayless : Json → Prop
  | null : Arrayless null
  | bool (b : Bool) : Arrayless (bool b)
  | int (n : Int) : Arrayless (int n)
  | float (x : Binary64) : Arrayless (float x)
  | string (s : String) : Arrayless (string s)
  | object {entries : List (String × Json)} : (∀ e ∈ entries, Arrayless e.2) →
      Arrayless (object entries)

theorem not_arrayless_array (items : List Json) : ¬ Arrayless (array items) := nofun

theorem spread_of_arrayless {v : Json} (h : Arrayless v) : spread v = 1 := by
  cases h <;> rfl

theorem arrayless_ofFloat (x : Binary64) : Arrayless (ofFloat x) := by
  unfold ofFloat
  split
  · exact .float x
  · exact .null

theorem arrayless_object_iff {entries : List (String × Json)} :
    Arrayless (object entries) ↔ ∀ e ∈ entries, Arrayless e.2 :=
  ⟨fun | .object h => h, .object⟩

theorem arrayless_numberJson (x : Binary64) : Arrayless (Datum.numberJson x) := by
  unfold Datum.numberJson
  split
  · split
    · exact .int _
    · exact arrayless_ofFloat x
  · exact arrayless_ofFloat x

structure ArraysOnly (g : Json → Json) : Prop where
  null : g null = null
  bool : ∀ b, g (bool b) = bool b
  int : ∀ n, g (int n) = int n
  float : ∀ x, g (float x) = float x
  string : ∀ s, g (string s) = string s
  array : ∀ items, ∃ others, g (array items) = array others
  object : ∀ entries, g (object entries) = object (Entries.mapValues g entries)

theorem ArraysOnly.eq_self {g : Json → Json} (h : ArraysOnly g) {v : Json} (hv : Arrayless v) :
    g v = v := by
  induction hv with
  | null => exact h.null
  | bool b => exact h.bool b
  | int n => exact h.int n
  | float x => exact h.float x
  | string s => exact h.string s
  | object _ ih => rw [h.object, mapValues_eq_self_iff.mpr ih]

theorem ArraysOnly.arrayless {g : Json → Json} (h : ArraysOnly g) {v : Json}
    (hv : Arrayless (g v)) : Arrayless v := by
  induction v using induct with
  | null => exact .null
  | bool b => exact .bool b
  | int n => exact .int n
  | float x => exact .float x
  | string s => exact .string s
  | array items =>
    obtain ⟨others, ho⟩ := h.array items
    rw [ho] at hv
    exact absurd hv (not_arrayless_array others)
  | object entries ih =>
    rw [h.object, arrayless_object_iff] at hv
    exact .object fun e he => ih e he (hv _ (List.mem_map_of_mem he))

theorem arraysOnly_brief : ArraysOnly brief where
  null := rfl
  bool _ := rfl
  int _ := rfl
  float _ := rfl
  string _ := rfl
  array items := ⟨_, brief_array items⟩
  object := brief_object

inductive Flat : Json → Prop
  | arrayless {v : Json} : Arrayless v → Flat v
  | array {items : List Json} : (∀ v ∈ items, Flat v) → Flat (array items)
  | untagged {entries : List (String × Json)} :
      Entries.contains entries Datum.tagKey = false → (∀ e ∈ entries, Flat e.2) →
      Flat (object entries)

theorem flat_array_iff {items : List Json} : Flat (array items) ↔ ∀ v ∈ items, Flat v := by
  constructor
  · intro h
    cases h with
    | arrayless h => exact absurd h (not_arrayless_array items)
    | array h => exact h
  · exact .array

theorem flat_tagged_iff {entries : List (String × Json)}
    (ht : Entries.contains entries Datum.tagKey = true) :
    Flat (object entries) ↔ Arrayless (object entries) := by
  constructor
  · intro h
    cases h with
    | arrayless h => exact h
    | untagged hf => simp [ht] at hf
  · exact .arrayless

theorem flat_untagged_iff {entries : List (String × Json)}
    (ht : Entries.contains entries Datum.tagKey = false) :
    Flat (object entries) ↔ ∀ e ∈ entries, Flat e.2 := by
  constructor
  · intro h
    cases h with
    | arrayless h => exact fun e he => .arrayless (arrayless_object_iff.mp h e he)
    | untagged _ h => exact h
  · exact .untagged ht

end ReqlDriver.Json
