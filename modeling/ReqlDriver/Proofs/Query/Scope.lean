import ReqlDriver.Proofs.Query.Trace

namespace ReqlDriver

namespace Traced

/-- `Scoped given outer x`: inside the bodies of the closures `outer`, the variables of `x` are
parameters of closures around them, with the numbers that these have been given, and no closure
stands inside itself. -/
inductive Scoped (given : List (List Nat)) : List Nat → Traced → Prop
  | operation {outer : List Nat} {origin : Origin} {op : Opcode} {args : List Traced}
      {options : List (String × Traced)} {literal : Option Datum} :
      op ≠ .var → op ≠ .func → (∀ a ∈ args, Scoped given outer a) →
      (∀ o ∈ options, Scoped given outer o.2) →
      Scoped given outer (node origin op args options literal)
  | parameter {outer ids : List Nat} {k place id : Nat} {rest : List Traced}
      {options : List (String × Traced)} {literal : Option Datum} :
      k ∈ outer → given[k]? = some ids → ids[place]? = some id →
      (∀ a ∈ rest, Scoped given outer a) → (∀ o ∈ options, Scoped given outer o.2) →
      Scoped given outer (node (.parameter k place) .var (number id :: rest) options literal)
  | function {outer ids : List Nat} {k : Nat} {body : Traced} {rest : List Traced}
      {options : List (String × Traced)} {literal : Option Datum} :
      k ∉ outer → given[k]? = some ids → Scoped given (k :: outer) body →
      (∀ a ∈ rest, Scoped given outer a) → (∀ o ∈ options, Scoped given outer o.2) →
      Scoped given outer (node (.closure k) .func
        (node .operation .makeArray (ids.map number) [] none :: body :: rest) options literal)

variable {given given' : List (List Nat)} {outer outer' : List Nat} {x : Traced}

theorem scoped_plain {op : Opcode} {args : List Traced} (origin : Origin) (literal : Option Datum)
    (hv : op ≠ .var) (hf : op ≠ .func) (ha : ∀ a ∈ args, Scoped given outer a) :
    Scoped given outer (node origin op args [] literal) :=
  .operation hv hf ha (List.forall_mem_nil _)

theorem scoped_leaf (given : List (List Nat)) (outer : List Nat) (d : Datum) :
    Scoped given outer (leaf d) :=
  scoped_plain .operation (some d) (by simp) (by simp) (List.forall_mem_nil _)

theorem scoped_ids (given : List (List Nat)) (outer ids : List Nat) :
    Scoped given outer (node .operation .makeArray (ids.map number) [] none) := by
  apply scoped_plain
  · simp
  · simp
  · intro a ha
    obtain ⟨id, -, rfl⟩ := List.mem_map.mp ha
    exact scoped_leaf given outer _

theorem getElem?_of_isPrefix {α : Type} {xs ys : List α} {k : Nat} {a : α} (h : xs <+: ys)
    (hk : xs[k]? = some a) : ys[k]? = some a := by
  obtain ⟨more, rfl⟩ := h
  obtain ⟨hl, -⟩ := List.getElem?_eq_some_iff.mp hk
  rw [List.getElem?_append_left hl, hk]

theorem Scoped.widen (h : Scoped given outer x) (hg : given <+: given')
    (hs : ∀ k ∈ outer, k ∈ outer') (hn : ∀ k ∈ outer', k ∉ outer → given.length ≤ k) :
    Scoped given' outer' x := by
  induction h generalizing outer' with
  | operation hv hf _ _ iha iho =>
    exact .operation hv hf (fun a ha => iha a ha hs hn) fun o ho => iho o ho hs hn
  | parameter hk hi hp _ _ iha iho =>
    exact .parameter (hs _ hk) (getElem?_of_isPrefix hg hi) hp (fun a ha => iha a ha hs hn)
      fun o ho => iho o ho hs hn
  | @function outer ids k body rest options literal hk hi _ _ _ ihb iha iho =>
    have hl : k < given.length := (List.getElem?_eq_some_iff.mp hi).1
    have hk' : k ∉ outer' := by
      intro hm
      have := hn k hm hk
      omega
    refine .function hk' (getElem?_of_isPrefix hg hi) (ihb ?_ ?_) (fun a ha => iha a ha hs hn)
      fun o ho => iho o ho hs hn
    · intro j hj
      rcases List.mem_cons.mp hj with rfl | hj
      · exact List.mem_cons_self
      · exact List.mem_cons_of_mem k (hs j hj)
    · intro j hj hno
      rcases List.mem_cons.mp hj with rfl | hj
      · exact absurd List.mem_cons_self hno
      · exact hn j hj fun h => hno (List.mem_cons_of_mem k h)

theorem Scoped.grow (h : Scoped given outer x) (hg : given <+: given') : Scoped given' outer x :=
  h.widen hg (fun _ hk => hk) fun _ hk hn => absurd hk hn

theorem Scoped.withArgs {added : List Traced} (h : Scoped given outer x)
    (ha : ∀ a ∈ added, Scoped given outer a) : Scoped given outer (x.withArgs added) := by
  cases h with
  | operation hv hf hx ho =>
    apply Scoped.operation hv hf _ ho
    intro a hm
    exact (List.mem_append.mp hm).elim (hx a) (ha a)
  | parameter hk hi hp hx ho =>
    apply Scoped.parameter hk hi hp _ ho
    intro a hm
    exact (List.mem_append.mp hm).elim (hx a) (ha a)
  | function hk hi hb hx ho =>
    apply Scoped.function hk hi hb _ ho
    intro a hm
    exact (List.mem_append.mp hm).elim (hx a) (ha a)

theorem Scoped.withOptions {added : List (String × Traced)} (h : Scoped given outer x)
    (ha : ∀ o ∈ added, Scoped given outer o.2) : Scoped given outer (x.withOptions added) := by
  cases h with
  | operation hv hf hx ho =>
    apply Scoped.operation hv hf hx
    intro o hm
    exact (Entries.mem_of_mem_extend hm).elim (ho o) (ha o)
  | parameter hk hi hp hx ho =>
    apply Scoped.parameter hk hi hp hx
    intro o hm
    exact (Entries.mem_of_mem_extend hm).elim (ho o) (ha o)
  | function hk hi hb hx ho =>
    apply Scoped.function hk hi hb hx
    intro o hm
    exact (Entries.mem_of_mem_extend hm).elim (ho o) (ha o)

theorem Scoped.arg {i : Nat} {a : Traced} (h : Scoped given outer x)
    (hi : ¬ (x.op = .func ∧ i = 1)) (ha : x.args[i]? = some a) : Scoped given outer a := by
  cases h with
  | operation _ _ hx _ => exact hx a (List.mem_of_getElem? ha)
  | parameter _ _ _ hx _ =>
    cases i with
    | zero =>
      obtain rfl := Option.some.inj ha
      exact scoped_leaf given outer _
    | succ i => exact hx a (List.mem_of_getElem? ha)
  | function _ _ _ hx _ =>
    match i with
    | 0 =>
      obtain rfl := Option.some.inj ha
      exact scoped_ids given outer _
    | 1 => exact absurd ⟨rfl, rfl⟩ hi
    | i + 2 => exact hx a (List.mem_of_getElem? ha)

theorem Scoped.option {o : String × Traced} (h : Scoped given outer x) (ho : o ∈ x.options) :
    Scoped given outer o.2 := by
  cases h with
  | operation _ _ _ hx => exact hx o ho
  | parameter _ _ _ _ hx => exact hx o ho
  | function _ _ _ _ hx => exact hx o ho

theorem Scoped.body {b : Traced} (h : Scoped given outer x) (hf : x.op = .func)
    (hb : x.args[1]? = some b) :
    ∃ k, x.origin = .closure k ∧ k ∉ outer ∧ Scoped given (k :: outer) b := by
  cases h with
  | operation _ hn _ _ => exact absurd hf hn
  | parameter => cases hf
  | function hk _ hx _ _ =>
    obtain rfl := Option.some.inj hb
    exact ⟨_, rfl, hk, hx⟩

theorem Scoped.of_occurs {fs : List Traced} {y : Traced} (h : Scoped given outer x)
    (hn : outer.Nodup) (ho : Occurs fs y x) :
    ∃ inner : List Nat, fs.map origin = inner.map .closure ∧ (inner ++ outer).Nodup ∧
      Scoped given (inner ++ outer) y := by
  induction ho generalizing outer with
  | here x => exact ⟨[], rfl, hn, h⟩
  | @body fs x y b hf hb _ ih =>
    obtain ⟨k, hk, hko, hs⟩ := h.body hf hb
    obtain ⟨inner, hi, hd, hy⟩ := ih hs (List.nodup_cons.mpr ⟨hko, hn⟩)
    refine ⟨inner ++ [k], ?_, ?_, ?_⟩
    · simp [hi, hk]
    · simpa using hd
    · simpa using hy
  | arg i hi ha _ ih => exact ih (h.arg hi ha) hn
  | option hm _ ih => exact ih (h.option hm) hn

theorem occurs_around {fs : List Traced} {f y : Traced} (h : Occurs fs y x) (hf : f ∈ fs) :
    f.op = .func ∧ ∃ gs, Occurs gs f x := by
  induction h with
  | here => cases hf
  | @body fs x y b hx hb _ ih =>
    rcases List.mem_append.mp hf with hf | hf
    · obtain ⟨ho, gs, hg⟩ := ih hf
      exact ⟨ho, _, .body hx hb hg⟩
    · obtain rfl := List.mem_singleton.mp hf
      exact ⟨hx, [], .here f⟩
  | arg i hi ha _ ih =>
    obtain ⟨ho, gs, hg⟩ := ih hf
    exact ⟨ho, gs, .arg i hi ha hg⟩
  | option hm _ ih =>
    obtain ⟨ho, gs, hg⟩ := ih hf
    exact ⟨ho, gs, .option hm hg⟩

end Traced

end ReqlDriver
