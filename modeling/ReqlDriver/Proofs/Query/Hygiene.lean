import ReqlDriver.Proofs.Keys
import ReqlDriver.Proofs.Number.Exact
import ReqlDriver.Proofs.Query.Scope

namespace ReqlDriver

open Traced

namespace Supply

structure Sound (s : Supply) : Prop where
  nodup : s.given.flatten.Nodup
  bound : ∀ id ∈ s.given.flatten, id < s.next
  consecutive : ∀ ids ∈ s.given, ∃ first, ids = List.range' first ids.length

theorem sound_start (first : Nat) : Sound ⟨first, []⟩ :=
  ⟨List.nodup_nil, List.forall_mem_nil _, List.forall_mem_nil _⟩

theorem Sound.give {s : Supply} (h : s.Sound) (arity : Nat) : (s.give arity).Sound := by
  have hm (id : Nat) : id ∈ s.ids arity ↔ s.next ≤ id ∧ id < s.next + arity := by
    simp [ids, Program.fresh, List.mem_range'_1]
  have hf : (s.give arity).given.flatten = s.given.flatten ++ s.ids arity := by
    simp [Supply.give]
  refine ⟨?_, ?_, ?_⟩
  · rw [hf, List.nodup_append]
    refine ⟨h.nodup, List.nodup_range', ?_⟩
    rintro a ha b hb rfl
    have hl := h.bound a ha
    have hg := (hm a).mp hb
    omega
  · intro id hi
    rw [hf] at hi
    change id < s.next + arity
    rcases List.mem_append.mp hi with hi | hi
    · have := h.bound id hi
      omega
    · exact ((hm id).mp hi).2
  · intro ids hi
    rcases List.mem_append.mp hi with hi | hi
    · exact h.consecutive ids hi
    · obtain rfl := List.mem_singleton.mp hi
      refine ⟨s.next, ?_⟩
      rw [Supply.ids, Program.fresh, List.length_range']

theorem Sound.disjoint {s : Supply} (h : s.Sound) {j k id : Nat} {xs ys : List Nat}
    (hj : s.given[j]? = some xs) (hk : s.given[k]? = some ys) (hx : id ∈ xs) (hy : id ∈ ys) :
    j = k := by
  have hp := (List.pairwise_flatten.mp h.nodup).2
  obtain ⟨hjl, rfl⟩ := List.getElem?_eq_some_iff.mp hj
  obtain ⟨hkl, rfl⟩ := List.getElem?_eq_some_iff.mp hk
  rcases Nat.lt_trichotomy j k with hlt | heq | hgt
  · exact absurd rfl (List.pairwise_iff_getElem.mp hp j k hjl hkl hlt id hx id hy)
  · exact heq
  · exact absurd rfl (List.pairwise_iff_getElem.mp hp k j hkl hjl hgt id hy id hx)

end Supply

namespace Program

/-- What holds wherever a program is built: inside the bodies of the closures `outer`, with their
parameters in scope. -/
structure Context (past : List Traced) (scope : TracedScope) (outer : List Nat) (s : Supply) :
    Prop where
  sound : s.Sound
  compiled : ∀ k ∈ outer, k < s.given.length
  parameters : ∀ e ∈ scope, e.2.closure ∈ outer ∧
    ∃ ids, s.given[e.2.closure]? = some ids ∧ ids[e.2.place]? = some e.2.id
  past : ∀ x ∈ past, Scoped s.given outer x

section

variable {past : List Traced} {scope : TracedScope} {outer : List Nat} {s : Supply}

theorem Context.grow {s' : Supply} (h : Context past scope outer s) (hg : s.given <+: s'.given)
    (hs : s'.Sound) : Context past scope outer s' where
  sound := hs
  compiled := fun k hk => Nat.lt_of_lt_of_le (h.compiled k hk) hg.length_le
  parameters := by
    intro e he
    obtain ⟨ho, ids, hi, hp⟩ := h.parameters e he
    exact ⟨ho, ids, getElem?_of_isPrefix hg hi, hp⟩
  past := fun x hx => (h.past x hx).grow hg

theorem given_give (s : Supply) (arity : Nat) :
    (s.give arity).given[s.given.length]? = some (s.ids arity) := by
  simp [Supply.give]

theorem Context.enter (h : Context past scope outer s) (names : List String) (arity : Nat) :
    Context past (scope.enter names (s.parameters arity)) (s.given.length :: outer)
      (s.give arity) := by
  have hg : s.given <+: (s.give arity).given := List.prefix_append _ _
  have hc := h.grow hg (h.sound.give arity)
  refine ⟨hc.sound, ?_, ?_, ?_⟩
  · intro k hk
    rcases List.mem_cons.mp hk with rfl | hk
    · simp [Supply.give]
    · exact hc.compiled k hk
  · intro e he
    rcases List.mem_append.mp he with he | he
    · obtain ⟨name, p⟩ := e
      have hp := (List.of_mem_zip (List.mem_reverse.mp he)).2
      obtain ⟨i, hi, rfl⟩ := List.mem_iff_getElem.mp hp
      rw [length_parameters] at hi
      refine ⟨by simp [Supply.parameters], s.ids arity, ?_, ?_⟩
      · simpa [Supply.parameters] using given_give s arity
      · simp [Supply.parameters]
    · obtain ⟨ho, hp⟩ := hc.parameters e he
      exact ⟨List.mem_cons_of_mem _ ho, hp⟩
  · intro x hx
    apply (h.past x hx).widen hg
    · intro k hk
      exact List.mem_cons_of_mem _ hk
    · intro k hk hn
      rcases List.mem_cons.mp hk with rfl | hk
      · exact Nat.le_refl _
      · exact absurd hk hn

theorem Context.scoped_function (h : Context past scope outer s) {arity : Nat} {body : Traced}
    {given : List (List Nat)} (hg : (s.give arity).given <+: given)
    (hb : Scoped given (s.given.length :: outer) body) :
    Scoped given outer (.function s.given.length (s.ids arity) body) := by
  apply Scoped.function
  · intro hm
    exact Nat.lt_irrefl _ (h.compiled _ hm)
  · exact getElem?_of_isPrefix hg (given_give s arity)
  · exact hb
  · exact List.forall_mem_nil _
  · exact List.forall_mem_nil _

structure Keeps (outer : List Nat) (s s' : Supply) (xs : List Traced) : Prop where
  grown : s.given <+: s'.given
  sound : s'.Sound
  made : ∀ x ∈ xs, Scoped s'.given outer x

theorem Keeps.refl (h : Context past scope outer s) {xs : List Traced}
    (hx : ∀ x ∈ xs, Scoped s.given outer x) : Keeps outer s s xs :=
  ⟨List.prefix_rfl, h.sound, hx⟩

theorem Keeps.one {s' : Supply} {xs : List Traced} {x : Traced} (h : Keeps outer s s' xs)
    (hx : Scoped s'.given outer x) : Keeps outer s s' [x] :=
  ⟨h.grown, h.sound, List.forall_mem_singleton.mpr hx⟩

theorem Keeps.refl_one (h : Context past scope outer s) {x : Traced}
    (hx : Scoped s.given outer x) : Keeps outer s s [x] :=
  .refl h (List.forall_mem_singleton.mpr hx)

theorem Keeps.append {s₁ s₂ : Supply} {xs ys : List Traced} (hx : Keeps outer s s₁ xs)
    (hy : Keeps outer s₁ s₂ ys) : Keeps outer s s₂ (xs ++ ys) := by
  refine ⟨hx.grown.trans hy.grown, hy.sound, ?_⟩
  intro x hm
  rcases List.mem_append.mp hm with hm | hm
  · exact (hx.made x hm).grow hy.grown
  · exact hy.made x hm

theorem Keeps.context {s' : Supply} {xs : List Traced} (h : Keeps outer s s' xs)
    (hc : Context past scope outer s) : Context past scope outer s' :=
  hc.grow h.grown h.sound

def Preserves (past : List Traced) (known : Term → Traced) (scope : TracedScope)
    (outer : List Nat) (p : Program) : Prop :=
  ∀ s, Context past scope outer s →
    Keeps outer s (trace known scope s p).2 [(trace known scope s p).1]

variable {known : Term → Traced}

theorem traceAll_keeps {ps : List Program} (h : ∀ p ∈ ps, Preserves past known scope outer p)
    (hc : Context past scope outer s) :
    Keeps outer s (traceAll known scope s ps).2 (traceAll known scope s ps).1 := by
  induction ps generalizing s with
  | nil => exact .refl hc (List.forall_mem_nil _)
  | cons p r ih =>
    have hp := h p List.mem_cons_self s hc
    exact hp.append (ih (fun q hq => h q (List.mem_cons_of_mem p hq)) (hp.context hc))

theorem traceFields_keeps {fields : List (String × Program)}
    (h : ∀ f ∈ fields, Preserves past known scope outer f.2) (hc : Context past scope outer s) :
    Keeps outer s (traceFields known scope s fields).2
      ((traceFields known scope s fields).1.map (·.2)) := by
  induction fields generalizing s with
  | nil => exact .refl hc (List.forall_mem_nil _)
  | cons f r ih =>
    have hp := h f List.mem_cons_self s hc
    exact hp.append (ih (fun q hq => h q (List.mem_cons_of_mem f hq)) (hp.context hc))

theorem function_keeps {names : List String} {arity : Nat} {body : Program}
    (hc : Context past scope outer s)
    (h : Preserves past known (scope.enter names (s.parameters arity)) (s.given.length :: outer)
      body) :
    let b := trace known (scope.enter names (s.parameters arity)) (s.give arity) body
    Keeps outer s b.2 [.function s.given.length (s.ids arity) b.1] := by
  intro b
  have hb := h (s.give arity) (hc.enter names arity)
  have hg : s.given <+: (s.give arity).given := List.prefix_append _ _
  refine ⟨hg.trans hb.grown, hb.sound, List.forall_mem_singleton.mpr ?_⟩
  exact hc.scoped_function hb.grown (hb.made b.1 List.mem_cons_self)

theorem mem_place {α : Type} {first : Bool} {f a : α} {operands : List α} :
    a ∈ place first f operands ↔ a = f ∨ a ∈ operands := by
  cases first with
  | true => simp [place]
  | false => simp [place, or_comm]

end

theorem Builder.preserves {past : List Traced} {known : Term → Traced} {names : List String}
    {p : Program} (h : Builder past known names p) {scope : TracedScope} {outer : List Nat}
    (hn : Covers scope names) : Preserves past known scope outer p := by
  induction h generalizing scope outer with
  | literal d hk =>
    intro s hc
    rw [term, trace, hk]
    exact .refl_one hc (scoped_leaf _ _ d)
  | ready t hm _ =>
    intro s hc
    rw [term, trace]
    exact .refl_one hc (hc.past _ hm)
  | parameter hm =>
    intro s hc
    obtain ⟨q, hq, hs⟩ := lookup_of_mem (hn _ hm)
    obtain ⟨ho, ids, hi, hp⟩ := hc.parameters _ hs
    rw [trace, hq]
    apply Keeps.refl_one hc
    exact .parameter ho hi hp (List.forall_mem_nil _) (List.forall_mem_nil _)
  | @operation names op operands hv hf _ ih =>
    intro s hc
    have ho := traceAll_keeps (fun q hq => ih q hq hn) hc
    rw [trace]
    exact ho.one (scoped_plain _ _ hv hf ho.made)
  | @applied names op operands first arity params body hv hf _ _ ihs ih =>
    intro s hc
    have ho := traceAll_keeps (fun q hq => ihs q hq hn) hc
    have hb := function_keeps (ho.context hc)
      (ih (covers_enter hn params (traceAll known scope s operands).2 arity))
    have hall := ho.append hb
    rw [trace]
    apply hall.one
    apply scoped_plain _ _ hv hf
    intro a ha
    rcases mem_place.mp ha with rfl | ha
    · exact hall.made _ (List.mem_append_right _ List.mem_cons_self)
    · exact hall.made a (List.mem_append_left _ ha)
  | @function names params body _ ih =>
    intro s hc
    have hn' := covers_enter hn params s params.length
    rw [List.take_length] at hn'
    rw [trace]
    exact function_keeps hc (ih hn')
  | @record names fields _ ih =>
    intro s hc
    have hf := traceFields_keeps (fun f hf => ih f hf hn) hc
    rw [trace]
    apply hf.one
    apply Scoped.operation
    · simp
    · simp
    · exact List.forall_mem_nil _
    · intro o ho
      rcases Entries.mem_of_mem_extend ho with ho | ho
      · cases ho
      · exact hf.made o.2 (List.mem_map_of_mem ho)
  | @extended names base args options _ _ _ ihb iha iho =>
    intro s hc
    have hb := ihb hn s hc
    have ha := traceAll_keeps (fun q hq => iha q hq hn) (hb.context hc)
    have hba := hb.append ha
    have ho := traceFields_keeps (fun f hf => iho f hf hn) (hba.context hc)
    have hall := hba.append ho
    rw [trace]
    apply hall.one
    apply Scoped.withOptions
    · apply Scoped.withArgs
      · exact hall.made _ (List.mem_append_left _ List.mem_cons_self)
      · intro a ha
        exact hall.made a (List.mem_append_left _ (List.mem_cons_of_mem _ ha))
    · intro o ho
      exact hall.made o.2 (List.mem_append_right _ (List.mem_map_of_mem ho))

theorem Process.context {s : Supply} {past : List Traced} (h : Process s past) :
    Context past [] [] s := by
  have nothing {past : List Traced} {s : Supply} (hs : s.Sound)
      (hp : ∀ x ∈ past, Scoped s.given [] x) : Context past [] [] s :=
    ⟨hs, List.forall_mem_nil _, List.forall_mem_nil _, hp⟩
  induction h with
  | start first => exact nothing (Supply.sound_start first) (List.forall_mem_nil _)
  | @build s past known p _ hp ih =>
    have hb : Preserves past known [] [] p := hp.preserves fun _ h => h
    have hk := hb s ih
    apply nothing hk.sound
    intro x hx
    rcases List.mem_cons.mp hx with rfl | hx
    · exact hk.made _ List.mem_cons_self
    · exact (ih.past x hx).grow hk.grown
  | @skip s past next _ hn ih =>
    refine nothing ⟨ih.sound.nodup, ?_, ih.sound.consecutive⟩ ih.past
    intro id hi
    exact Nat.lt_of_lt_of_le (ih.sound.bound id hi) hn

end Program

namespace Traced

def number? (v : Traced) : Option Nat := v.term.args.head?.bind Term.variableNumber?

def binds (f : Traced) (id : Nat) : Bool := f.term.boundIds?.any (·.contains id)

/-- The bindings in some terms, where `given` are the numbers that the closures were given. -/
structure Hygienic (given : List (List Nat)) (xs : List Traced) : Prop where
  distinct : given.flatten.Nodup
  consecutive : ∀ ids ∈ given, ∃ first, ids = List.range' first ids.length
  bound : ∀ x ∈ xs, ∀ fs v, Occurs fs v x → v.op = .var →
    ∃ k place id f, v.origin = .parameter k place ∧ v.number? = some id ∧
      f.origin = .closure k ∧ (given[k]?.bind fun ids => ids[place]?) = some id ∧
      fs.filter (·.binds id) = [f]
  numbered : ∀ x ∈ xs, ∀ fs f, Occurs fs f x → f.op = .func →
    ∃ k ids, f.origin = .closure k ∧ given[k]? = some ids ∧ f.term.boundIds? = some ids
  disjoint : ∀ x ∈ xs, ∀ y ∈ xs, ∀ fs gs f g, Occurs fs f x → Occurs gs g y → f.op = .func →
    g.op = .func → f.origin ≠ g.origin → ∀ id, f.binds id → ¬ g.binds id
  nested : ∀ x ∈ xs, ∀ fs f, Occurs fs f x → f.op = .func → ∀ g ∈ fs, ∀ id, f.binds id →
    ¬ g.binds id

theorem variableNumber_ofNat {id : Nat} (h : id < twoTo 53) :
    Term.variableNumber (Binary64.ofNat id) = id := by
  have hw : id ≤ 18446744073709551615 := by
    have : twoTo 53 ≤ 18446744073709551615 := by decide
    omega
  have hd : id * Binary64.one / Binary64.one = id := Nat.mul_div_cancel id Binary64.one_pos
  rw [Term.variableNumber, Binary64.ofNat_eq h]
  simp only [Binary64.saturate, Binary64.truncate, Binary64.signed, hd, Option.getD_some,
    Width.clamp, Width.uint64]
  simp
  omega

theorem variableNumber?_number {id : Nat} (h : id < twoTo 53) :
    (number id).term.variableNumber? = some id := by
  simp [term_number, Term.variableNumber?, Term.datum, Term.literal?, Datum.asNumber?,
    variableNumber_ofNat h]

theorem mapM_numbers {ids : List Nat} (h : ∀ id ∈ ids, id < twoTo 53) :
    ((ids.map number).map term).mapM Term.variableNumber? = some ids := by
  induction ids with
  | nil => rfl
  | cons id r ih =>
    have hid := variableNumber?_number (h id List.mem_cons_self)
    have hr := ih fun j hj => h j (List.mem_cons_of_mem id hj)
    simp only [List.map_cons, List.mapM_cons, hid, hr]
    rfl

def Small (given : List (List Nat)) : Prop := ∀ ids ∈ given, ∀ id ∈ ids, id < twoTo 53

theorem Scoped.variable {given : List (List Nat)} {outer : List Nat} {v : Traced}
    (h : Scoped given outer v) (hv : v.op = .var) (small : Small given) :
    ∃ k place ids id, v.origin = .parameter k place ∧ v.number? = some id ∧ k ∈ outer ∧
      given[k]? = some ids ∧ ids[place]? = some id := by
  cases h with
  | operation hn _ _ _ => exact absurd hv hn
  | @parameter _ ids k place id rest options literal hk hi hp _ _ =>
    have hs := small ids (List.mem_of_getElem? hi) id (List.mem_of_getElem? hp)
    refine ⟨k, place, ids, id, rfl, ?_, hk, hi, hp⟩
    rw [number?, term_node]
    exact variableNumber?_number hs
  | function => cases hv

theorem Scoped.function_ids {given : List (List Nat)} {outer : List Nat} {f : Traced}
    (h : Scoped given outer f) (hf : f.op = .func) (small : Small given) :
    ∃ k ids, f.origin = .closure k ∧ k ∉ outer ∧ given[k]? = some ids ∧
      f.term.boundIds? = some ids := by
  cases h with
  | operation _ hn _ _ => exact absurd hf hn
  | parameter => cases hf
  | @function _ ids k body rest options literal hk hi _ _ _ =>
    refine ⟨k, ids, rfl, hk, hi, ?_⟩
    have hm := mapM_numbers (small ids (List.mem_of_getElem? hi))
    simpa [Term.boundIds?, term_node, Term.op, Term.args] using hm

theorem binds_iff {f : Traced} {ids : List Nat} (h : f.term.boundIds? = some ids) (id : Nat) :
    f.binds id ↔ id ∈ ids := by
  simp [binds, h]

end Traced

namespace Program

section

variable {s : Supply} {xs : List Traced}

theorem Context.function_ids (h : Context xs [] [] s) (small : Small s.given) {x f : Traced}
    {fs : List Traced} (hx : x ∈ xs) (ho : Occurs fs f x) (hf : f.op = .func) :
    ∃ k ids, f.origin = .closure k ∧ f.origin ∉ fs.map origin ∧ s.given[k]? = some ids ∧
      f.term.boundIds? = some ids := by
  obtain ⟨inner, hi, -, hy⟩ := (h.past x hx).of_occurs List.nodup_nil ho
  obtain ⟨k, ids, hk, hno, hg, hb⟩ := hy.function_ids hf small
  refine ⟨k, ids, hk, ?_, hg, hb⟩
  rw [hi, hk]
  simpa using hno

theorem Context.origin_eq (h : Context xs [] [] s) (small : Small s.given) {x y f g : Traced}
    {fs gs : List Traced} (hx : x ∈ xs) (hy : y ∈ xs) (hf : Occurs fs f x) (hg : Occurs gs g y)
    (hfo : f.op = .func) (hgo : g.op = .func) {id : Nat} (hfi : f.binds id) (hgi : g.binds id) :
    f.origin = g.origin := by
  obtain ⟨j, xs, hj, -, hxs, hfb⟩ := h.function_ids small hx hf hfo
  obtain ⟨k, ys, hk, -, hys, hgb⟩ := h.function_ids small hy hg hgo
  have hjk := h.sound.disjoint hxs hys ((binds_iff hfb id).mp hfi) ((binds_iff hgb id).mp hgi)
  rw [hj, hk, hjk]

theorem Context.hygienic (h : Context xs [] [] s) (small : Small s.given) :
    Hygienic s.given xs where
  distinct := h.sound.nodup
  consecutive := h.sound.consecutive
  bound := by
    intro x hx fs v ho hv
    obtain ⟨inner, hi, hd, hy⟩ := (h.past x hx).of_occurs List.nodup_nil ho
    rw [List.append_nil] at hd hy
    obtain ⟨k, place, ids, id, hvo, hvn, hk, hg, hp⟩ := hy.variable hv small
    have hm : Origin.closure k ∈ fs.map origin := by
      rw [hi]
      exact List.mem_map_of_mem hk
    obtain ⟨f, hf, hfk⟩ := List.mem_map.mp hm
    obtain ⟨hfo, gs, hgs⟩ := occurs_around ho hf
    obtain ⟨j, ids', hj, -, hg', hb⟩ := h.function_ids small hx hgs hfo
    obtain rfl : k = j := Origin.closure.inj (hfk.symm.trans hj)
    obtain rfl : ids = ids' := Option.some.inj (hg.symm.trans hg')
    have hfi : f.binds id := (binds_iff hb id).mpr (List.mem_of_getElem? hp)
    refine ⟨k, place, id, f, hvo, hvn, hfk, by rw [hg]; exact hp, ?_⟩
    apply filter_eq_singleton (g := origin) _ hf hfi
    · intro g hgm hgi
      obtain ⟨hgo, hs', hhs⟩ := occurs_around ho hgm
      exact h.origin_eq small hx hx hhs hgs hgo hfo hgi hfi
    · rw [hi]
      apply List.pairwise_map.mpr
      exact List.Pairwise.imp (fun hab hc => hab (Origin.closure.inj hc)) hd
  numbered := by
    intro x hx fs f ho hf
    obtain ⟨k, ids, hk, -, hg, hb⟩ := h.function_ids small hx ho hf
    exact ⟨k, ids, hk, hg, hb⟩
  disjoint := by
    intro x hx y hy fs gs f g hf hg hfo hgo hne id hfi hgi
    exact hne (h.origin_eq small hx hy hf hg hfo hgo hfi hgi)
  nested := by
    intro x hx fs f ho hf g hg id hfi hgi
    obtain ⟨hgo, gs, hgs⟩ := occurs_around ho hg
    obtain ⟨k, ids, -, hno, -, -⟩ := h.function_ids small hx ho hf
    have he := h.origin_eq small hx hx ho hgs hf hgo hfi hgi
    exact hno (he ▸ List.mem_map_of_mem hg)

/-- Of a program of calls and closures comes a term, each closure has the next numbers of the
counter, and with all that was built before the term has hygienic bindings as long as the numbers
stay below `2 ^ 53`. -/
theorem build_hygienic {known : Term → Traced} {p : Program} (process : Process s xs)
    (builder : Builder xs known [] p) (small : Small (s.given ++ handOut s.next (arities p))) :
    build [] s.next p =
        .ok ((trace known [] s p).1.term, (arities p).foldl (· + ·) s.next) ∧
      Hygienic (s.given ++ handOut s.next (arities p)) ((trace known [] s p).1 :: xs) := by
  have hb : Follows known [] p := build_trace builder fun _ h => h
  have hs : (trace known [] s p).2 = s.serve (arities p) := builder.served [] s
  have hc : Context ((trace known [] s p).1 :: xs) [] [] (s.serve (arities p)) :=
    hs ▸ (process.build known p builder).context
  have hn : (arities p).foldl (· + ·) s.next = (trace known [] s p).2.next := by
    rw [hs]
    rfl
  constructor
  · rw [hn]
    exact hb s
  · exact hc.hygienic small

end

def rowSums (map reduce add : Method) (rows : Term) : Program :=
  map.callWith (.last 1) [term rows] ["row"]
    (reduce.callWith (.last 2) [term rows] ["sum", "next"]
      (add.call [.parameter "sum", add.call [.parameter "next", .parameter "row"]]))

theorem builder_rowSums {past : List Traced} {known : Term → Traced} {map reduce add : Method}
    {rows : Term} (hm : map ∈ Method.ofTerm) (hr : reduce ∈ Method.ofTerm)
    (ha : add ∈ Method.ofTerm) (h : ∀ scope, Builder past known scope (term rows)) :
    Builder past known [] (rowSums map reduce add rows) := by
  have hrows {scope : List String} : ∀ p ∈ [term rows], Builder past known scope p :=
    List.forall_mem_singleton.mpr (h scope)
  have hadd {scope : List String} {p q : Program} (hp : Builder past known scope p)
      (hq : Builder past known scope q) : Builder past known scope (add.call [p, q]) := by
    apply builder_call (List.mem_append_left _ ha)
    exact List.forall_mem_cons.mpr ⟨hp, List.forall_mem_singleton.mpr hq⟩
  apply builder_callWith (List.mem_append_left _ hm) hrows
  apply builder_callWith (List.mem_append_left _ hr) hrows
  apply hadd
  · exact .parameter (by simp [arity])
  · exact hadd (.parameter (by simp [arity])) (.parameter (by simp [arity]))

theorem build_hygienic_rowSums :
    let map : Method := ⟨"map", .map, [], some (.last 1)⟩
    let reduce : Method := ⟨"reduce", .reduce, [], some (.last 2)⟩
    let add : Method := ⟨"add", .add, [.term], none⟩
    let p := rowSums map reduce add (Term.datum .null)
    let x := (trace (fun _ => .leaf .null) [] ⟨7, []⟩ p).1
    build [] 7 p = .ok (x.term, 10) ∧ Hygienic [[7], [8, 9]] [x] := by
  intro map reduce add p x
  have hm : map ∈ Method.ofTerm := by simp [map, Method.ofTerm]
  have hr : reduce ∈ Method.ofTerm := by simp [reduce, Method.ofTerm]
  have ha : add ∈ Method.ofTerm := by simp [add, Method.ofTerm]
  have small : ∀ ids ∈ [[7], [8, 9]], ∀ id ∈ ids, id < twoTo 53 := by decide
  exact build_hygienic (.start 7) (builder_rowSums hm hr ha fun _ => .literal .null rfl) small

end Program

end ReqlDriver
