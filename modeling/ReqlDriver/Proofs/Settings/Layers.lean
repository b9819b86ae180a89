import ReqlDriver.Settings.Reader

namespace ReqlDriver

namespace Integer

def Writes (cs : List Char) (n : Nat) : Prop :=
  ∃ ds, (cs = ds ∨ cs = '+' :: ds) ∧ ds ≠ [] ∧ (∀ c ∈ ds, c.isDigit) ∧ Decimal.ofDigits ds = n

def WritesUInt16 (text : String) : Prop := ∃ n : UInt16, Writes text.toList n.toNat

theorem ofDigits?_eq_some_iff {ds : List Char} {n : Nat} :
    ofDigits? ds = some n ↔ ds ≠ [] ∧ (∀ c ∈ ds, c.isDigit) ∧ Decimal.ofDigits ds = n := by
  rw [ofDigits?]
  split
  · next h => simp_all
  · next h =>
    simp only [List.all_eq_true] at h
    simp only [reduceCtorEq, false_iff]
    rintro ⟨hne, hall, -⟩
    exact h ⟨hne, hall⟩

theorem unsigned?_eq_some_iff {cs : List Char} {n : Nat} :
    unsigned? cs = some n ↔ Writes cs n := by
  unfold unsigned?
  split
  · next ds =>
    rw [ofDigits?_eq_some_iff]
    constructor
    · intro h
      exact ⟨ds, .inr rfl, h⟩
    · rintro ⟨ds', rfl | h, hne, hall, hn⟩
      · exact absurd (hall '+' List.mem_cons_self) (by decide)
      · cases h
        exact ⟨hne, hall, hn⟩
  · next hplus =>
    rw [ofDigits?_eq_some_iff]
    constructor
    · intro h
      exact ⟨cs, .inl rfl, h⟩
    · rintro ⟨ds, rfl | rfl, h⟩
      · exact h
      · exact absurd rfl (hplus ds)

theorem uint16?_eq_some_iff {text : String} {n : UInt16} :
    uint16? text = some n ↔ Writes text.toList n.toNat := by
  simp only [uint16?, Option.bind_eq_some_iff, unsigned?_eq_some_iff,
    Option.ite_none_right_eq_some, Option.some.injEq]
  constructor
  · rintro ⟨m, hm, hlt, rfl⟩
    rwa [UInt16.toNat_ofNat_of_lt' hlt]
  · intro h
    exact ⟨n.toNat, h, n.toNat_lt, UInt16.ofNat_toNat⟩

theorem uint16?_eq_none_iff {text : String} : uint16? text = none ↔ ¬ WritesUInt16 text := by
  simp only [Option.eq_none_iff_forall_ne_some, ne_eq, uint16?_eq_some_iff, WritesUInt16,
    not_exists]

end Integer

namespace Settings

namespace Layer

def onto (upper lower : Layer) : Layer where
  host := upper.host.or lower.host
  port := upper.port.or lower.port
  authKey := upper.authKey.or lower.authKey
  db := upper.db.or lower.db
  timeout := upper.timeout.or lower.timeout

def text? : Option Toml → Option (Option String)
  | none => some none
  | some (.string v) => some (some v)
  | some _ => none

def whole? {α : Type} (read : Int → Option α) : Option Toml → Option (Option α)
  | none => some none
  | some (.integer n) => (read n).map some
  | some _ => none

def ofToml? (t : Toml.Table) : Option Layer := do
  let host ← text? (Entries.get? t Field.host.key)
  let port ← whole? port? (Entries.get? t Field.port.key)
  let authKey ← text? (Entries.get? t Field.authKey.key)
  let db ← text? (Entries.get? t Field.db.key)
  let timeout ← whole? timeout? (Entries.get? t Field.timeout.key)
  some { host, port, authKey, db, timeout }

def ofText? (contents : String) : Option Layer := (Toml.read? contents).bind ofToml?

def ofVariables (lookup : String → Option String) : Layer where
  host := lookup "RETHINKDB_HOST"
  port := (lookup "RETHINKDB_PORT").bind Integer.uint16?
  authKey := lookup "RETHINKDB_AUTH_KEY"
  db := lookup "RETHINKDB_DB"

end Layer

theorem overlay_onto (s : Settings) (upper lower : Layer) :
    s.overlay (upper.onto lower) = (s.overlay lower).overlay upper := by
  simp only [overlay, Layer.onto, Option.getD_or, Option.or_assoc]

def place? (s : Settings) (f : Field) : Option Toml → Option Settings
  | none => some s
  | some (.string v) => s.set? f (.text v)
  | some (.integer n) => s.set? f (.number n)
  | some _ => none

theorem ofToml?_eq (s : Settings) (t : Toml.Table) :
    s.ofToml? t = Field.all.foldlM (fun s f => s.place? f (Entries.get? t f.key)) s := rfl

theorem place?_text {s : Settings} {f : Field} {value : Option Toml}
    (layer : Option String → Layer) (hnone : s.overlay (layer none) = s)
    (htext : ∀ v, s.set? f (.text v) = some (s.overlay (layer (some v))))
    (hnumber : ∀ n, s.set? f (.number n) = none) :
    s.place? f value = (Layer.text? value).map fun v => s.overlay (layer v) := by
  cases value with
  | none => rw [place?, Layer.text?, Option.map_some, hnone]
  | some v => cases v with
    | string v => exact htext v
    | integer n => exact hnumber n
    | _ => rfl

theorem place?_whole {α : Type} {read : Int → Option α} {s : Settings} {f : Field}
    {value : Option Toml} (layer : Option α → Layer) (hnone : s.overlay (layer none) = s)
    (htext : ∀ v, s.set? f (.text v) = none)
    (hnumber : ∀ n, s.set? f (.number n) = (read n).map fun v => s.overlay (layer (some v))) :
    s.place? f value = (Layer.whole? read value).map fun v => s.overlay (layer v) := by
  cases value with
  | none => rw [place?, Layer.whole?, Option.map_some, hnone]
  | some v => cases v with
    | string v => exact htext v
    | integer n =>
      rw [place?, Layer.whole?, Option.map_map, hnumber]
      rfl
    | _ => rfl

theorem ofToml?_eq_overlay (s : Settings) (t : Toml.Table) :
    s.ofToml? t = (Layer.ofToml? t).map s.overlay := by
  have hhost (s : Settings) (value : Option Toml) : s.place? .host value =
      (Layer.text? value).map fun v => s.overlay { host := v } :=
    place?_text _ rfl (fun _ => rfl) fun _ => rfl
  have hport (s : Settings) (value : Option Toml) : s.place? .port value =
      (Layer.whole? port? value).map fun v => s.overlay { port := v } :=
    place?_whole _ rfl (fun _ => rfl) fun _ => rfl
  have hkey (s : Settings) (value : Option Toml) : s.place? .authKey value =
      (Layer.text? value).map fun v => s.overlay { authKey := v } :=
    place?_text _ rfl (fun _ => rfl) fun _ => rfl
  have hdb (s : Settings) (value : Option Toml) : s.place? .db value =
      (Layer.text? value).map fun v => s.overlay { db := v } :=
    place?_text _ rfl (fun _ => rfl) fun _ => rfl
  have htimeout (s : Settings) (value : Option Toml) : s.place? .timeout value =
      (Layer.whole? timeout? value).map fun v => s.overlay { timeout := v } :=
    place?_whole _ rfl (fun _ => rfl) fun _ => rfl
  rw [ofToml?_eq]
  simp only [Field.all, List.foldlM_cons, List.foldlM_nil, hhost, hport, hkey, hdb, htimeout,
    Layer.ofToml?, bind, pure, Option.bind_map, Option.map_bind, Function.comp_def]
  rfl

theorem readToml_eq_ok_iff {contents : String} {s : Settings} :
    readToml contents = .ok s ↔
      ∃ file, Layer.ofText? contents = some file ∧ ({} : Settings).overlay file = s := by
  have hread : (Toml.read? contents).bind (ofToml? {}) =
      (Layer.ofText? contents).map ({} : Settings).overlay := by
    rw [Layer.ofText?, Option.map_bind]
    exact congrArg _ (funext (ofToml?_eq_overlay {}))
  rw [readToml, hread, ← Option.map_eq_some_iff]
  cases (Layer.ofText? contents).map ({} : Settings).overlay <;> simp

section Environment

variable {lookup : String → Option String}

theorem environment_of_port
    (h : ∀ text, lookup "RETHINKDB_PORT" = some text → Integer.WritesUInt16 text) :
    environment lookup = .ok (Layer.ofVariables lookup) := by
  cases hp : lookup "RETHINKDB_PORT" with
  | none => simp only [environment, Layer.ofVariables, hp, Option.bind_none]
  | some text =>
    obtain ⟨port, hport⟩ := Option.ne_none_iff_exists'.mp
      fun hnone => Integer.uint16?_eq_none_iff.mp hnone (h text hp)
    simp only [environment, Layer.ofVariables, hp, Option.bind_some, hport]

theorem environment_of_not_port {text : String} (hp : lookup "RETHINKDB_PORT" = some text)
    (h : ¬ Integer.WritesUInt16 text) :
    environment lookup = .error (.config (.portVariable text)) := by
  simp only [environment, hp, Integer.uint16?_eq_none_iff.mpr h]

end Environment

end Settings

end ReqlDriver
