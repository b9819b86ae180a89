import ReqlDriver.CommandLine.Invocation
import ReqlDriver.Proofs.CommandLine.Given
import ReqlDriver.Proofs.Keys
import ReqlDriver.Proofs.Settings.Layers

namespace ReqlDriver.CommandLine

variable {lookup : String → Option String} {args : List String} {level : Level}
  {text : Option String} {options : List (String × String)} {i : Invocation}

structure Flags where
  host : Option String
  port : Option UInt16
  authKey : Option String
  db : Option String
  seconds : Option UInt64

namespace Flags

def ofOptions? (options : List (String × String)) : Option Flags := do
  let port ← (options.lookup "port").mapM port?
  let seconds ← (options.lookup "timeout").mapM Integer.uint64?
  some
    { host := options.lookup "host"
      port
      authKey := options.lookup "auth-key"
      db := options.lookup "db"
      seconds }

def layer (f : Flags) : Settings.Layer where
  host := f.host
  port := f.port
  authKey := f.authKey
  db := f.db

end Flags

theorem kind?_port (l : Level) : l.kind? "port" = some .port := by cases l <;> decide

theorem kind?_timeout (l : Level) : l.kind? "timeout" = some .seconds := by cases l <;> decide

theorem Fitting.accepts {name value : String} {kind : Kind} (h : Fitting (name, value))
    (hk : ∀ l : Level, l.kind? name = some kind) (hflag : kind ≠ .flag) :
    kind.accepts value := by
  obtain ⟨l, k, hl, ha⟩ := h
  obtain rfl := Option.some.inj ((hk l).symm.trans hl)
  exact ha.resolve_left hflag

theorem exists_mapM_lookup {α : Type} {name : String} {kind : Kind} {read : String → Option α}
    (hfit : ∀ o ∈ options, Fitting o) (hk : ∀ l : Level, l.kind? name = some kind)
    (hflag : kind ≠ .flag) (hread : ∀ value, kind.accepts value → (read value).isSome) :
    ∃ v, (options.lookup name).mapM read = some v := by
  cases h : options.lookup name with
  | none => exact ⟨none, rfl⟩
  | some value =>
    have hv := hread value ((hfit _ (mem_of_lookup_eq_some h)).accepts hk hflag)
    obtain ⟨v, hv⟩ := Option.isSome_iff_exists.mp hv
    exact ⟨some v, by simp [hv]⟩

theorem exists_flags (h : parse lookup args = some (.command level text options)) :
    ∃ flags, Flags.ofOptions? options = some flags := by
  have hfit := sound_parse h level text options rfl
  obtain ⟨port, hport⟩ := exists_mapM_lookup hfit kind?_port (by decide) fun _ h => h
  obtain ⟨seconds, hseconds⟩ := exists_mapM_lookup hfit kind?_timeout (by decide) fun _ h => h
  simp [Flags.ofOptions?, hport, hseconds]

theorem bind_of_mapM {α β : Type} {f : α → Option β} {x : Option α} {y : Option β}
    (h : x.mapM f = some y) : x.bind f = y := by
  cases x with
  | none => exact Option.some.inj h
  | some a =>
    obtain ⟨b, hb, rfl⟩ := Option.map_eq_some_iff.mp h
    exact hb

theorem exists_of_start (h : start lookup args = .run i) : ∃ level text options,
    parse lookup args = some (.command level text options) ∧
      invocation? level text options lookup = some i := by
  unfold start at h
  split at h
  · cases h
  · cases h
  · cases h
  · next level text options hp =>
    split at h
    · cases h
    · next hi =>
      cases h
      exact ⟨level, text, options, hp, hi⟩

theorem invocation?_flags {flags : Flags} (hf : Flags.ofOptions? options = some flags)
    (h : invocation? level text options lookup = some i) :
    i.layer = flags.layer ∧ i.timeout = flags.seconds.getD defaultTimeout := by
  simp only [Flags.ofOptions?, bind, Option.bind_eq_some_iff] at hf
  obtain ⟨port, hport, seconds, hseconds, hf⟩ := hf
  simp only [invocation?, bind, Option.bind_eq_some_iff] at h
  obtain ⟨command, -, h⟩ := h
  cases hf
  cases h
  simp only [bind_of_mapM hport, bind_of_mapM hseconds, Flags.layer, and_self]

theorem settings_of_not_port {value : String} (hp : lookup "RETHINKDB_PORT" = some value)
    (h : ¬ Integer.WritesUInt16 value) (file : Option Settings) :
    i.settings file lookup = .error (.config (.portVariable value)) := by
  rw [Invocation.settings, Settings.withEnvironment, Settings.environment_of_not_port hp h]
  rfl

def Invocation.combined (i : Invocation) (lookup : String → Option String)
    (file : Settings.Layer) : Settings :=
  (({} : Settings).overlay
    (i.layer.onto ((Settings.Layer.ofVariables lookup).onto file))).withTimeout
      (i.timeout.toNat * 1000000)

theorem settings_of_port
    (h : ∀ value, lookup "RETHINKDB_PORT" = some value → Integer.WritesUInt16 value)
    (file : Option Settings.Layer) :
    i.settings (file.map ({} : Settings).overlay) lookup =
      .ok (i.combined lookup (file.getD {})) := by
  have hfile : (file.map ({} : Settings).overlay).getD {} =
      ({} : Settings).overlay (file.getD {}) := by
    cases file <;> rfl
  rw [Invocation.settings, Settings.withEnvironment, Settings.environment_of_port h, hfile,
    Invocation.combined, Settings.overlay_onto, Settings.overlay_onto]
  rfl

def askedMillis (seconds fileMillis : Option UInt64) : Nat :=
  ((seconds.map fun n => n.toNat * 1000).or (fileMillis.map UInt64.toNat)).getD 20000

def usedMillis (seconds : Option UInt64) : UInt64 :=
  .ofNat ((seconds.getD defaultTimeout).toNat * 1000)

/-- What is asked for can be used: as many seconds as have their milliseconds within 64 bits, and
from a file only the twenty seconds that would be used without it. -/
def Granted : Option UInt64 → Option UInt64 → Prop
  | some n, _ => n.toNat * 1000 < UInt64.size
  | none, fileMillis => fileMillis.getD 20000 = 20000

theorem usedMillis_eq_iff {seconds fileMillis : Option UInt64} :
    (usedMillis seconds).toNat = askedMillis seconds fileMillis ↔ Granted seconds fileMillis := by
  cases seconds with
  | some n =>
    have hasked : askedMillis (some n) fileMillis = n.toNat * 1000 := rfl
    rw [hasked, usedMillis, Granted, Option.getD_some, UInt64.toNat_ofNat']
    constructor
    · intro h
      rw [← h]
      exact Nat.mod_lt _ (by decide)
    · exact Nat.mod_eq_of_lt
  | none => cases fileMillis with
    | none => exact ⟨fun _ => rfl, fun _ => rfl⟩
    | some millis =>
      rw [Granted, Option.getD_some, ← UInt64.toNat_inj]
      exact eq_comm

example : usedMillis (some 2305843009213693952) = 0 := by decide

structure Layered (flags : Flags) (lookup : String → Option String) (file : Settings.Layer)
    (s : Settings) : Prop where
  host : s.host = (flags.host.or ((lookup "RETHINKDB_HOST").or file.host)).getD "localhost"
  port : s.port = (flags.port.or
    (((lookup "RETHINKDB_PORT").bind Integer.uint16?).or file.port)).getD 28015
  authKey : s.authKey = flags.authKey.or ((lookup "RETHINKDB_AUTH_KEY").or file.authKey)
  db : s.db = flags.db.or ((lookup "RETHINKDB_DB").or file.db)
  timeout : s.timeout = some (usedMillis flags.seconds)
  granted : (∃ millis, s.timeout = some millis ∧
    millis.toNat = askedMillis flags.seconds file.timeout) ↔ Granted flags.seconds file.timeout

theorem layered_combined {flags : Flags} (file : Settings.Layer) (hl : i.layer = flags.layer)
    (ht : i.timeout = flags.seconds.getD defaultTimeout) :
    Layered flags lookup file (i.combined lookup file) := by
  have htimeout : UInt64.ofNat (i.timeout.toNat * 1000000 / 1000) = usedMillis flags.seconds := by
    rw [usedMillis, ht]
    congr 1
    omega
  rw [Invocation.combined, hl]
  refine ⟨rfl, rfl, ?_, ?_, congrArg some htimeout, ?_⟩
  · exact Option.or_none
  · exact Option.or_none
  · rw [← usedMillis_eq_iff]
    simp only [Settings.withTimeout, htimeout, Option.some.injEq, exists_eq_left']

/-- The settings of a run fail exactly if the variable of the port is no port, and else each of them
is from the uppermost layer that has it, but for the timeout: a file's is passed over, and one in
seconds is cut to 64 bits of milliseconds. Whatever a file says, it says as a layer. -/
theorem settings_layered (h : start lookup args = .run i) (file : Option Settings.Layer) :
    ∃ level text options flags, parse lookup args = some (.command level text options) ∧
      Flags.ofOptions? options = some flags ∧
      (∀ value, lookup "RETHINKDB_PORT" = some value → ¬ Integer.WritesUInt16 value →
        i.settings (file.map ({} : Settings).overlay) lookup =
          .error (.config (.portVariable value))) ∧
      ((∀ value, lookup "RETHINKDB_PORT" = some value → Integer.WritesUInt16 value) →
        ∃ s, i.settings (file.map ({} : Settings).overlay) lookup = .ok s ∧
          Layered flags lookup (file.getD {}) s) ∧
      ∀ contents given, Settings.readToml contents = .ok given ↔
        ∃ layer, Settings.Layer.ofText? contents = some layer ∧
          ({} : Settings).overlay layer = given := by
  obtain ⟨level, text, options, hp, hi⟩ := exists_of_start h
  obtain ⟨flags, hf⟩ := exists_flags hp
  obtain ⟨hl, ht⟩ := invocation?_flags hf hi
  refine ⟨level, text, options, flags, hp, hf, ?_, ?_, ?_⟩
  · intro value hv hbad
    exact settings_of_not_port hv hbad _
  · intro hport
    exact ⟨_, settings_of_port hport file, layered_combined _ hl ht⟩
  · intro contents given
    exact Settings.readToml_eq_ok_iff

theorem settings_layered_table_list :
    let lookup (name : String) := [("RETHINKDB_PORT", "+80"), ("RETHINKDB_DB", "blog")].lookup name
    let args := ["--port", "1234", "table", "--timeout", "5", "--port=29015", "list"]
    let contents := "host = 'db.example.com'\ndb = 'analytics'\ntimeout_ms = 7000\n"
    let file : Settings.Layer :=
      { host := some "db.example.com", db := some "analytics", timeout := some 7000 }
    ∃ i s, start lookup args = .run i ∧
      Settings.readToml contents = .ok (({} : Settings).overlay file) ∧
      i.settings (some (({} : Settings).overlay file)) lookup = .ok s ∧
      s.address = "db.example.com:29015" ∧ s.authKey = none ∧ s.db = some "blog" ∧
      s.timeout = some 5000 := by
  intro lookup args contents file
  obtain ⟨i, hi⟩ : ∃ i, start lookup args = .run i := ⟨_, rfl⟩
  obtain ⟨level, text, options, flags, hp, hf, -, hs, -⟩ := settings_layered hi (some file)
  have hfile : (Toml.read? contents).bind (Settings.ofToml? {}) =
      some (({} : Settings).overlay file) := by decide +kernel
  have hport (value : String) (hv : lookup "RETHINKDB_PORT" = some value) :
      Integer.WritesUInt16 value := by
    cases hv
    exact ⟨80, ['8', '0'], .inr rfl, by decide, by simp, rfl⟩
  have hparse : parse lookup args = some (.command .tableList none
      [("port", "29015"), ("timeout", "5"), ("port", "1234")]) := rfl
  cases hparse.symm.trans hp
  cases hf
  obtain ⟨s, hs, layered⟩ := hs hport
  refine ⟨i, s, hi, ?_, hs, ?_, layered.authKey, layered.db, layered.timeout⟩
  · rw [Settings.readToml, hfile]
  · rw [Settings.address, layered.host, layered.port]
    decide

theorem settings_timeout_not_asked :
    let args := ["--config", "reql.toml", "--host", "127.0.0.1", "--port", "28015", "server-info"]
    ∃ i file s, start (fun _ => none) args = .run i ∧
      Settings.readToml "timeout_ms = 0\n" = .ok (({} : Settings).overlay file) ∧
      i.settings (some (({} : Settings).overlay file)) (fun _ => none) = .ok s ∧
      askedMillis none file.timeout = 0 ∧ s.timeout = some 20000 := by
  intro args
  have hfile : (Toml.read? "timeout_ms = 0\n").bind (Settings.ofToml? {}) =
      some (({} : Settings).overlay { timeout := some 0 }) := by decide +kernel
  refine ⟨_, { timeout := some 0 }, _, rfl, ?_, rfl, rfl, rfl⟩
  rw [Settings.readToml, hfile]

end ReqlDriver.CommandLine
