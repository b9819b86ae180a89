import ReqlDriver.CommandLine.Arguments

namespace ReqlDriver.CommandLine

def Fitting (o : String × String) : Prop :=
  ∃ (l : Level) (kind : Kind), l.kind? o.1 = some kind ∧ (kind = .flag ∨ kind.accepts o.2)

structure Seen.Sound (s : Seen) : Prop where
  options : ∀ o ∈ s.options, Fitting o
  pending : ∀ kind name value, s.pending = some (kind, name, value) →
    ∃ l : Level, l.kind? name = some kind

def Request.Sound (r : Request) : Prop :=
  ∀ l text options, r = .command l text options → ∀ o ∈ options, Fitting o

variable {lookup : String → Option String} {l : Level} {s s' : Seen}

namespace Seen

theorem sound_empty : Sound {} where
  options _ ho := absurd ho List.not_mem_nil
  pending _ _ _ h := nomatch h

theorem Sound.enter {name value : String} (hs : s.Sound) (hf : Fitting (name, value))
    (h : s.enter name value = some s') : s'.Sound := by
  rw [Seen.enter, Option.ite_none_left_eq_some, Option.some.injEq] at h
  obtain ⟨-, rfl⟩ := h
  exact ⟨List.forall_mem_cons.mpr ⟨hf, hs.options⟩, hs.pending⟩

theorem Sound.give {kind : Kind} {name value : String} (hs : s.Sound)
    (hk : l.kind? name = some kind) (h : s.give kind name value = some s') : s'.Sound := by
  rw [Seen.give, Option.ite_none_right_eq_some] at h
  exact hs.enter ⟨l, kind, hk, .inr h.1⟩ h.2

theorem Sound.resolve (hs : s.Sound) (h : s.resolve = some s') : s'.Sound := by
  rw [Seen.resolve] at h
  split at h
  · cases h
    exact hs
  · next kind name value hp =>
    obtain ⟨l, hk⟩ := hs.pending kind name value hp
    have hs : ({ s with pending := none } : Seen).Sound :=
      ⟨hs.options, fun _ _ _ h => absurd h.symm (Option.some_ne_none _)⟩
    exact hs.give hk h

theorem Sound.take {text : String} (hs : s.Sound) (h : s.take l text = some s') : s'.Sound := by
  rw [Seen.take, Option.bind_eq_some_iff] at h
  obtain ⟨t, ht, h⟩ := h
  rw [Option.ite_none_right_eq_some, Option.some.injEq] at h
  obtain ⟨-, rfl⟩ := h
  have hs := hs.resolve ht
  exact ⟨hs.options, hs.pending⟩

theorem Sound.close {options : List (String × String)} (hs : s.Sound)
    (h : s.close lookup = some options) : ∀ o ∈ options, Fitting o := by
  rw [Seen.close, Option.bind_eq_some_iff] at h
  obtain ⟨t, ht, h⟩ := h
  rw [Option.ite_none_right_eq_some, Option.some.injEq] at h
  obtain ⟨-, rfl⟩ := h
  exact (hs.resolve ht).options

end Seen

open Seen

theorem sound_takeOption {name : String} {value : Option String} {args rest : List String}
    (hs : s.Sound) (h : takeOption l s name value args = some (s', rest)) : s'.Sound := by
  simp only [takeOption, bind, Option.bind_eq_some_iff] at h
  obtain ⟨t, ht, kind, hk, h⟩ := h
  have hs := hs.resolve ht
  split at h
  · obtain ⟨u, hu, h⟩ := Option.map_eq_some_iff.mp h
    cases h
    exact hs.enter ⟨l, .flag, hk, .inl rfl⟩ hu
  · cases h
  · obtain ⟨u, hu, h⟩ := Option.map_eq_some_iff.mp h
    cases h
    exact hs.give hk hu
  · rw [Option.ite_none_right_eq_some, Option.some.injEq] at h
    obtain ⟨-, h⟩ := h
    cases h
    refine ⟨hs.options, fun kind name value hp => ?_⟩
    cases hp
    exact ⟨l, hk⟩
  · cases h

theorem sound_takeShort {letters : List Char} {args rest : List String} (hs : s.Sound)
    (h : takeShort l s letters args = some (s', rest)) : s'.Sound := by
  cases letters with
  | nil => cases h
  | cons c cs =>
    simp only [takeShort, bind, Option.bind_eq_some_iff] at h
    obtain ⟨name, -, h⟩ := h
    split at h <;> exact sound_takeOption hs h

theorem sound_finish {r : Request} (hs : s.Sound) (h : finish lookup l s = some r) : r.Sound := by
  rw [finish, Option.bind_eq_some_iff] at h
  obtain ⟨options, ho, h⟩ := h
  rw [Option.ite_none_left_eq_some, Option.some.injEq] at h
  obtain ⟨-, rfl⟩ := h
  rintro _ _ _ ⟨⟩
  exact hs.close ho

theorem Request.Sound.within {r r' : Request} (hr : r.Sound) (hs : s.Sound)
    (h : r.within lookup s = some r') : r'.Sound := by
  cases r with
  | command l text options =>
    obtain ⟨outer, ho, rfl⟩ := Option.map_eq_some_iff.mp h
    rintro _ _ _ ⟨⟩ o hmem
    rcases List.mem_append.mp hmem with hmem | hmem
    · exact hr _ _ _ rfl o hmem
    · exact hs.close ho o hmem
  | help l =>
    cases h
    exact hr
  | version =>
    cases h
    exact hr

theorem sound_parseTexts {texts : List String} {r : Request} (hs : s.Sound)
    (h : parseTexts lookup l s texts = some r) : r.Sound := by
  induction texts generalizing s with
  | nil => exact sound_finish hs h
  | cons text texts ih =>
    obtain ⟨t, ht, h⟩ := Option.bind_eq_some_iff.mp h
    exact ih (hs.take ht) h

theorem sound_help : (Request.help l).Sound := fun _ _ _ h => nomatch h

theorem sound_version : Request.version.Sound := fun _ _ _ h => nomatch h

theorem sound_map {α : Type} {x : Option α} {f : α → Request} {r : Request}
    (hf : ∀ a, (f a).Sound) (h : x.map f = some r) : r.Sound := by
  obtain ⟨a, -, rfl⟩ := Option.map_eq_some_iff.mp h
  exact hf a

theorem sound_parseLevel {n : Nat} {args : List String} {r : Request} (hs : s.Sound)
    (h : parseLevel lookup n l s args = some r) : r.Sound := by
  induction n generalizing l s args r with
  | zero => cases args with
    | nil => exact sound_finish hs h
    | cons => cases h
  | succ n ih => cases args with
    | nil => exact sound_finish hs h
    | cons arg rest =>
      rw [parseLevel] at h
      split at h
      · exact sound_parseTexts hs h
      · exact sound_map (fun _ => sound_help) h
      · split at h
        · exact sound_map (fun _ => sound_version) h
        · obtain ⟨⟨t, rest⟩, ht, h⟩ := Option.bind_eq_some_iff.mp h
          exact ih (sound_takeOption hs ht) h
      · exact sound_map (fun _ => sound_help) h
      · split at h
        · exact sound_map (fun _ => sound_version) h
        · obtain ⟨⟨t, rest⟩, ht, h⟩ := Option.bind_eq_some_iff.mp h
          exact ih (sound_takeShort hs ht) h
      · split at h
        · obtain ⟨t, ht, h⟩ := Option.bind_eq_some_iff.mp h
          exact ih (hs.take ht) h
        · split at h
          -- the command starts with nothing seen, and this level's options come after its own
          · obtain ⟨r, hr, h⟩ := Option.bind_eq_some_iff.mp h
            exact (ih sound_empty hr).within hs h
          · split at h
            · exact sound_map (fun _ => sound_help) h
            · cases h

theorem sound_parse {args : List String} {r : Request} (h : parse lookup args = some r) :
    r.Sound :=
  sound_parseLevel sound_empty h

end ReqlDriver.CommandLine
