import ReqlDriver.Proofs.Entries
import ReqlDriver.Query.Method

/-!
Terms that remember how they were built. Closures are numbered in the order in which they are
compiled, once for each time that an operation consumes one; a function knows the number of its
closure, and a variable the closure and the place of the parameter that it was.
-/

namespace ReqlDriver

inductive Origin
  | operation
  | closure (number : Nat)
  | parameter (closure place : Nat)
deriving DecidableEq

inductive Traced
  | node (origin : Origin) (op : Opcode) (args : List Traced) (options : List (String × Traced))
      (literal : Option Datum)

namespace Traced

def origin : Traced → Origin
  | node origin _ _ _ _ => origin

def op : Traced → Opcode
  | node _ op _ _ _ => op

def args : Traced → List Traced
  | node _ _ args _ _ => args

def options : Traced → List (String × Traced)
  | node _ _ _ options _ => options

def literal? : Traced → Option Datum
  | node _ _ _ _ literal => literal

mutual

def term : Traced → Term
  | node _ op args options literal => .node op (terms args) (fields options) literal

def terms : List Traced → List Term
  | [] => []
  | x :: r => term x :: terms r

def fields : List (String × Traced) → List (String × Term)
  | [] => []
  | (k, x) :: r => (k, term x) :: fields r

end

def leaf (d : Datum) : Traced := node .operation .datum [] [] (some d)

def number (id : Nat) : Traced := leaf (.number (Binary64.ofNat id))

def function (closure : Nat) (ids : List Nat) (body : Traced) : Traced :=
  node (.closure closure) .func
    [node .operation .makeArray (ids.map number) [] none, body] [] none

def withArgs (x : Traced) (added : List Traced) : Traced :=
  node x.origin x.op (x.args ++ added) x.options x.literal?

def withOptions (x : Traced) (added : List (String × Traced)) : Traced :=
  node x.origin x.op x.args (Entries.extend x.options added) x.literal?

/-- `Occurs fs y x`: `y` is a part of `x`, and lies in the bodies of the functions `fs`, the
innermost first. -/
inductive Occurs : List Traced → Traced → Traced → Prop
  | here (x : Traced) : Occurs [] x x
  | body {fs : List Traced} {x y b : Traced} : x.op = .func → x.args[1]? = some b →
      Occurs fs y b → Occurs (fs ++ [x]) y x
  | arg {fs : List Traced} {x y a : Traced} (i : Nat) : ¬ (x.op = .func ∧ i = 1) →
      x.args[i]? = some a → Occurs fs y a → Occurs fs y x
  | option {fs : List Traced} {x y : Traced} {o : String × Traced} : o ∈ x.options →
      Occurs fs y o.2 → Occurs fs y x

theorem terms_eq_map (xs : List Traced) : terms xs = xs.map term := by
  induction xs with
  | nil => rfl
  | cons x r ih => rw [terms, ih, List.map_cons]

theorem fields_eq_mapValues (os : List (String × Traced)) :
    fields os = Entries.mapValues term os := by
  induction os with
  | nil => rfl
  | cons o r ih =>
    rw [fields, ih]
    rfl

theorem term_node (origin : Origin) (op : Opcode) (args : List Traced)
    (options : List (String × Traced)) (literal : Option Datum) :
    (node origin op args options literal).term =
      .node op (args.map term) (Entries.mapValues term options) literal := by
  rw [term, terms_eq_map, fields_eq_mapValues]

theorem term_withArgs (x : Traced) (added : List Traced) :
    (x.withArgs added).term = x.term.withArgs (added.map term) := by
  cases x with
  | node origin op args options literal =>
    simp [withArgs, term_node, Term.withArgs, Traced.args, Traced.op, Traced.options,
      Traced.literal?, Term.args, Term.op, Term.options, Term.literal?]

theorem term_withOptions (x : Traced) (added : List (String × Traced)) :
    (x.withOptions added).term = x.term.withOptions (Entries.mapValues term added) := by
  cases x with
  | node origin op args options literal =>
    simp [withOptions, term_node, Term.withOptions, Traced.args, Traced.op, Traced.options,
      Traced.literal?, Term.args, Term.op, Term.options, Term.literal?, Entries.mapValues_extend]

theorem term_number (id : Nat) : (number id).term = Term.datum (.number (Binary64.ofNat id)) := rfl

theorem term_function (closure : Nat) (ids : List Nat) (body : Traced) :
    (function closure ids body).term = Term.function ids body.term := by
  have hp : (ids.map number).map term =
      ids.map fun id => Term.datum (.number (Binary64.ofNat id)) := by
    rw [List.map_map]
    rfl
  simp only [function, term_node, List.map_cons, List.map_nil, hp]
  rfl

end Traced

structure Parameter where
  closure : Nat
  place : Nat
  id : Nat

def Parameter.traced (p : Parameter) : Traced :=
  .node (.parameter p.closure p.place) .var [.number p.id] [] none

structure Supply where
  next : Nat
  given : List (List Nat)

def handOut : Nat → List Nat → List (List Nat)
  | _, [] => []
  | next, arity :: r => List.range' next arity :: handOut (next + arity) r

theorem handOut_append (next : Nat) (ms ns : List Nat) :
    handOut next (ms ++ ns) = handOut next ms ++ handOut (ms.foldl (· + ·) next) ns := by
  induction ms generalizing next with
  | nil => rfl
  | cons m r ih => rw [List.cons_append, handOut, handOut, ih, List.foldl_cons, List.cons_append]

namespace Supply

def ids (s : Supply) (arity : Nat) : List Nat := Program.fresh s.next arity

def give (s : Supply) (arity : Nat) : Supply := ⟨s.next + arity, s.given ++ [s.ids arity]⟩

def parameters (s : Supply) (arity : Nat) : List Parameter :=
  (s.ids arity).mapIdx fun place id => ⟨s.given.length, place, id⟩

def serve (s : Supply) (arities : List Nat) : Supply :=
  ⟨arities.foldl (· + ·) s.next, s.given ++ handOut s.next arities⟩

theorem serve_nil (s : Supply) : s.serve [] = s := by
  rw [serve, handOut, List.append_nil, List.foldl_nil]

theorem serve_append (s : Supply) (ms ns : List Nat) :
    s.serve (ms ++ ns) = (s.serve ms).serve ns := by
  simp only [serve, handOut_append, List.foldl_append, List.append_assoc]

theorem serve_cons (s : Supply) (arity : Nat) (ns : List Nat) :
    s.serve (arity :: ns) = (s.give arity).serve ns := by
  simp only [serve, give, ids, Program.fresh, handOut, List.foldl_cons, List.append_assoc,
    List.singleton_append]

end Supply

namespace Program

abbrev TracedScope := List (String × Parameter)

def TracedScope.enter (scope : TracedScope) (names : List String) (ps : List Parameter) :
    TracedScope :=
  (names.zip ps).reverse ++ scope

mutual

/-- What a program builds, with the origins. `known` tells how terms that stand ready were built. -/
def trace (known : Term → Traced) (scope : TracedScope) (s : Supply) : Program → Traced × Supply
  | made (.ok t) => (known t, s)
  | parameter name => match scope.lookup name with
    | some p => (p.traced, s)
    | none => (.leaf .null, s)
  | operation op operands =>
    let xs := traceAll known scope s operands
    (.node .operation op xs.1 [] none, xs.2)
  | applied op operands first arity names body =>
    let xs := traceAll known scope s operands
    let s := xs.2
    let b := trace known (scope.enter names (s.parameters arity)) (s.give arity) body
    let f := Traced.function s.given.length (s.ids arity) b.1
    (.node .operation op (place first f xs.1) [] none, b.2)
  | function names body =>
    let arity := names.length
    let b := trace known (scope.enter names (s.parameters arity)) (s.give arity) body
    (.function s.given.length (s.ids arity) b.1, b.2)
  | record fields =>
    let xs := traceFields known scope s fields
    (.node .operation .makeObj [] (Entries.ofList xs.1) none, xs.2)
  | extended base args options =>
    let x := trace known scope s base
    let xs := traceAll known scope x.2 args
    let os := traceFields known scope xs.2 options
    ((x.1.withArgs xs.1).withOptions os.1, os.2)
  | _ => (.leaf .null, s)

def traceAll (known : Term → Traced) (scope : TracedScope) (s : Supply) :
    List Program → List Traced × Supply
  | [] => ([], s)
  | p :: r =>
    let x := trace known scope s p
    let xs := traceAll known scope x.2 r
    (x.1 :: xs.1, xs.2)

def traceFields (known : Term → Traced) (scope : TracedScope) (s : Supply) :
    List (String × Program) → List (String × Traced) × Supply
  | [] => ([], s)
  | (k, p) :: r =>
    let x := trace known scope s p
    let xs := traceFields known scope x.2 r
    ((k, x.1) :: xs.1, xs.2)

end

mutual

def arities : Program → List Nat
  | operation _ operands => aritiesAll operands
  | applied _ operands _ arity _ body => aritiesAll operands ++ arity :: arities body
  | function names body => names.length :: arities body
  | record fields => aritiesFields fields
  | extended base args options => arities base ++ (aritiesAll args ++ aritiesFields options)
  | _ => []

def aritiesAll : List Program → List Nat
  | [] => []
  | p :: r => arities p ++ aritiesAll r

def aritiesFields : List (String × Program) → List Nat
  | [] => []
  | (_, p) :: r => arities p ++ aritiesFields r

end

/-- The programs of calls, containers and closures in which every name is a parameter in scope.
A term that stands ready is a literal or has been built before; nothing else makes variables or
functions by hand, and nothing takes a part out of a term. -/
inductive Builder (past : List Traced) (known : Term → Traced) : List String → Program → Prop
  | literal {scope : List String} (d : Datum) : known (Term.datum d) = .leaf d →
      Builder past known scope (term (Term.datum d))
  | ready {scope : List String} (t : Term) : known t ∈ past → (known t).term = t →
      Builder past known scope (term t)
  | parameter {scope : List String} {name : String} : name ∈ scope →
      Builder past known scope (parameter name)
  | operation {scope : List String} {op : Opcode} {operands : List Program} :
      op ≠ .var → op ≠ .func → (∀ p ∈ operands, Builder past known scope p) →
      Builder past known scope (operation op operands)
  | applied {scope : List String} {op : Opcode} {operands : List Program} {first : Bool}
      {arity : Nat} {names : List String} {body : Program} :
      op ≠ .var → op ≠ .func → (∀ p ∈ operands, Builder past known scope p) →
      Builder past known (names.take arity ++ scope) body →
      Builder past known scope (applied op operands first arity names body)
  | function {scope : List String} {names : List String} {body : Program} :
      Builder past known (names ++ scope) body →
      Builder past known scope (function names body)
  | record {scope : List String} {fields : List (String × Program)} :
      (∀ f ∈ fields, Builder past known scope f.2) →
      Builder past known scope (record fields)
  | extended {scope : List String} {base : Program} {args : List Program}
      {options : List (String × Program)} :
      Builder past known scope base → (∀ p ∈ args, Builder past known scope p) →
      (∀ o ∈ options, Builder past known scope o.2) →
      Builder past known scope (extended base args options)

theorem op_of_method : ∀ m ∈ Method.ofTerm ++ Method.ofRoot, m.op ≠ .var ∧ m.op ≠ .func := by
  decide +kernel

theorem builder_call {past : List Traced} {known : Term → Traced} {scope : List String}
    {m : Method} {operands : List Program} (hm : m ∈ Method.ofTerm ++ Method.ofRoot)
    (ho : ∀ p ∈ operands, Builder past known scope p) :
    Builder past known scope (m.call operands) :=
  .operation (op_of_method m hm).1 (op_of_method m hm).2 ho

def arity (operands : Nat) : Callback → Nat
  | .last n => n
  | .first n => n
  | .firstOfAll => operands

theorem builder_callWith {past : List Traced} {known : Term → Traced} {scope : List String}
    {m : Method} {callback : Callback} {operands : List Program} {names : List String}
    {body : Program} (hm : m ∈ Method.ofTerm ++ Method.ofRoot)
    (ho : ∀ p ∈ operands, Builder past known scope p)
    (hb : Builder past known (names.take (arity operands.length callback) ++ scope) body) :
    Builder past known scope (m.callWith callback operands names body) := by
  obtain ⟨hv, hf⟩ := op_of_method m hm
  cases callback with
  | last n => exact .applied hv hf ho hb
  | first n => exact .applied hv hf ho hb
  | firstOfAll => exact .applied hv hf ho hb

inductive Process : Supply → List Traced → Prop
  | start (first : Nat) : Process ⟨first, []⟩ []
  | build {s : Supply} {past : List Traced} (known : Term → Traced) (p : Program) :
      Process s past → Builder past known [] p →
      Process (trace known [] s p).2 ((trace known [] s p).1 :: past)
  | skip {s : Supply} {past : List Traced} (next : Nat) :
      Process s past → s.next ≤ next → Process ⟨next, s.given⟩ past

def TracedScope.ids (scope : TracedScope) : Scope := scope.map fun e => (e.1, e.2.id)

theorem lookup_ids (scope : TracedScope) (name : String) :
    scope.ids.lookup name = (scope.lookup name).map Parameter.id := by
  induction scope with
  | nil => rfl
  | cons e r ih =>
    obtain ⟨k, p⟩ := e
    simp only [TracedScope.ids, List.map_cons, List.lookup_cons] at ih ⊢
    cases name == k with
    | true => rfl
    | false => exact ih

theorem lookup_of_mem {scope : TracedScope} {name : String} (h : name ∈ scope.map (·.1)) :
    ∃ p, scope.lookup name = some p ∧ (name, p) ∈ scope := by
  induction scope with
  | nil => cases h
  | cons e r ih =>
    obtain ⟨k, p⟩ := e
    rw [List.lookup_cons]
    cases hk : name == k with
    | true =>
      have he : name = k := by simpa using hk
      exact ⟨p, rfl, he ▸ List.mem_cons_self⟩
    | false =>
      rcases List.mem_cons.mp h with rfl | h
      · simp at hk
      · obtain ⟨q, hq, hm⟩ := ih h
        exact ⟨q, hq, List.mem_cons_of_mem _ hm⟩

theorem length_parameters (s : Supply) (arity : Nat) : (s.parameters arity).length = arity := by
  simp [Supply.parameters, Supply.ids, fresh]

theorem map_id_parameters (s : Supply) (arity : Nat) :
    (s.parameters arity).map Parameter.id = s.ids arity := by
  apply List.ext_getElem
  · simp [Supply.parameters]
  · intro i h₁ h₂
    simp [Supply.parameters]

theorem ids_enter (scope : TracedScope) (names : List String) (s : Supply) (arity : Nat) :
    (scope.enter names (s.parameters arity)).ids = scope.ids.enter names (fresh s.next arity) := by
  have hz : (names.zip (s.parameters arity)).map (fun e => (e.1, e.2.id)) =
      names.zip (s.ids arity) := by
    rw [← map_id_parameters, List.zip_map_right]
    rfl
  simp only [TracedScope.enter, TracedScope.ids, Scope.enter, List.map_append, List.map_reverse, hz]
  rfl

theorem map_fst_zip_take (names : List String) (ps : List Parameter) :
    (names.zip ps).map (·.1) = names.take ps.length := by
  induction names generalizing ps with
  | nil => simp
  | cons n r ih =>
    cases ps with
    | nil => rfl
    | cons p ps => simp [ih]

def Covers (scope : TracedScope) (names : List String) : Prop :=
  ∀ name ∈ names, name ∈ scope.map (·.1)

theorem covers_enter {scope : TracedScope} {outer : List String} (h : Covers scope outer)
    (names : List String) (s : Supply) (arity : Nat) :
    Covers (scope.enter names (s.parameters arity)) (names.take arity ++ outer) := by
  have hz : (names.zip (s.parameters arity)).map (·.1) = names.take arity := by
    rw [map_fst_zip_take, length_parameters]
  intro name hn
  simp only [TracedScope.enter, List.map_append, List.map_reverse, List.mem_append,
    List.mem_reverse, hz]
  exact (List.mem_append.mp hn).imp_right (h name)

section

variable {known : Term → Traced} {scope : TracedScope}

def Follows (known : Term → Traced) (scope : TracedScope) (p : Program) : Prop :=
  ∀ s, build scope.ids s.next p =
    .ok ((trace known scope s p).1.term, (trace known scope s p).2.next)

theorem buildAll_follows {ps : List Program} (h : ∀ p ∈ ps, Follows known scope p) (s : Supply) :
    buildAll scope.ids s.next ps =
      .ok ((traceAll known scope s ps).1.map Traced.term, (traceAll known scope s ps).2.next) := by
  induction ps generalizing s with
  | nil => rfl
  | cons p r ih =>
    have hr := ih (fun q hq => h q (List.mem_cons_of_mem p hq)) (trace known scope s p).2
    rw [buildAll, h p List.mem_cons_self s]
    simp only [bind, Except.bind, hr, traceAll, List.map_cons]

theorem buildFields_follows {fields : List (String × Program)}
    (h : ∀ f ∈ fields, Follows known scope f.2) (s : Supply) :
    buildFields scope.ids s.next fields =
      .ok (Entries.mapValues Traced.term (traceFields known scope s fields).1,
        (traceFields known scope s fields).2.next) := by
  induction fields generalizing s with
  | nil => rfl
  | cons f r ih =>
    obtain ⟨k, p⟩ := f
    have hr := ih (fun q hq => h q (List.mem_cons_of_mem _ hq)) (trace known scope s p).2
    rw [buildFields, h (k, p) List.mem_cons_self s]
    simp only [bind, Except.bind, hr, traceFields, Entries.mapValues, List.map_cons]

end

theorem map_place {α β : Type} (g : α → β) (first : Bool) (f : α) (operands : List α) :
    (place first f operands).map g = place first (g f) (operands.map g) := by
  cases first with
  | true => rfl
  | false => simp [place]

theorem build_trace {past : List Traced} {known : Term → Traced} {names : List String}
    {p : Program} (h : Builder past known names p) {scope : TracedScope}
    (hc : Covers scope names) : Follows known scope p := by
  induction h generalizing scope with
  | literal d hk =>
    intro s
    rw [term, build, trace, hk]
    rfl
  | ready t hm ht =>
    intro s
    rw [term, build, trace, ht]
  | parameter hn =>
    intro s
    obtain ⟨q, hq, -⟩ := lookup_of_mem (hc _ hn)
    rw [build, trace, lookup_ids, hq]
    rfl
  | operation _ _ _ ih =>
    intro s
    have ho := buildAll_follows (fun q hq => ih q hq hc) s
    rw [build, ho, trace]
    simp only [bind, Except.bind, Traced.term_node]
    rfl
  | @applied names op operands first arity params body _ _ _ _ ihs ih =>
    intro s
    have ho := buildAll_follows (fun q hq => ihs q hq hc) s
    have hb := ih (covers_enter hc params (traceAll known scope s operands).2 arity)
      ((traceAll known scope s operands).2.give arity)
    rw [ids_enter] at hb
    rw [build, ho, trace]
    simp only [bind, Except.bind, Supply.give] at hb ⊢
    rw [hb]
    simp only [Traced.term_node, map_place, Traced.term_function]
    rfl
  | @function names params body _ ih =>
    intro s
    have hc' := covers_enter hc params s params.length
    rw [List.take_length] at hc'
    have hb := ih hc' (s.give params.length)
    rw [ids_enter] at hb
    rw [build, trace]
    simp only [bind, Except.bind, Supply.give] at hb ⊢
    rw [hb]
    simp only [Traced.term_function]
    rfl
  | record _ ih =>
    intro s
    have hf := buildFields_follows (fun f hf => ih f hf hc) s
    rw [build, hf, trace]
    simp only [bind, Except.bind, Traced.term_node, Entries.ofList, Entries.mapValues_extend]
    rfl
  | @extended names base args options _ _ _ ihb iha iho =>
    intro s
    have hb := ihb hc s
    have ha := buildAll_follows (fun q hq => iha q hq hc) (trace known scope s base).2
    have ho := buildFields_follows (fun f hf => iho f hf hc)
      (traceAll known scope (trace known scope s base).2 args).2
    rw [build, hb, trace]
    simp only [bind, Except.bind, ha, ho, Traced.term_withOptions, Traced.term_withArgs]

section

variable {known : Term → Traced}

def Served (known : Term → Traced) (p : Program) : Prop :=
  ∀ scope s, (trace known scope s p).2 = s.serve (arities p)

theorem traceAll_serve {ps : List Program} (h : ∀ p ∈ ps, Served known p) (scope : TracedScope)
    (s : Supply) : (traceAll known scope s ps).2 = s.serve (aritiesAll ps) := by
  induction ps generalizing s with
  | nil => exact s.serve_nil.symm
  | cons p r ih =>
    have hr := ih (fun q hq => h q (List.mem_cons_of_mem p hq)) (s.serve (arities p))
    rw [aritiesAll, Supply.serve_append, ← hr, ← h p List.mem_cons_self scope s, traceAll]

theorem traceFields_serve {fields : List (String × Program)} (h : ∀ f ∈ fields, Served known f.2)
    (scope : TracedScope) (s : Supply) :
    (traceFields known scope s fields).2 = s.serve (aritiesFields fields) := by
  induction fields generalizing s with
  | nil => exact s.serve_nil.symm
  | cons f r ih =>
    obtain ⟨k, p⟩ := f
    have hr := ih (fun g hg => h g (List.mem_cons_of_mem _ hg)) (s.serve (arities p))
    rw [aritiesFields, Supply.serve_append, ← hr, ← h (k, p) List.mem_cons_self scope s,
      traceFields]

end

theorem Builder.served {past : List Traced} {known : Term → Traced} {names : List String}
    {p : Program} (h : Builder past known names p) : Served known p := by
  induction h with
  | literal d => exact fun scope s => s.serve_nil.symm
  | ready t => exact fun scope s => s.serve_nil.symm
  | @parameter scope name =>
    intro scope s
    rw [trace]
    split <;> exact s.serve_nil.symm
  | operation _ _ _ ih =>
    intro scope s
    rw [trace, arities, ← traceAll_serve ih]
  | applied _ _ _ _ ihs ih =>
    intro scope s
    rw [trace, arities, Supply.serve_append, Supply.serve_cons, ← traceAll_serve ihs scope, ← ih]
  | function _ ih =>
    intro scope s
    rw [trace, arities, Supply.serve_cons, ← ih]
  | record _ ih =>
    intro scope s
    rw [trace, arities, ← traceFields_serve ih]
  | extended _ _ _ ihb iha iho =>
    intro scope s
    rw [trace, arities, Supply.serve_append, Supply.serve_append, ← ihb scope,
      ← traceAll_serve iha scope, ← traceFields_serve iho]

end Program

end ReqlDriver
