import ReqlDriver.Proofs.Query.Parts

namespace ReqlDriver

namespace Opcode

theorem code_of_ofCode? {n : Nat} {op : Opcode} (h : ofCode? n = some op) : n = op.code := by
  have hf : all.find? (fun op => op.code == n) = some op := h
  have hb := List.find?_some hf
  exact (beq_iff_eq.mp hb).symm

theorem code_inj {op o : Opcode} (h : (Json.int op.code) = .int o.code) : op = o := by
  have hc : op.code = o.code := Int.ofNat.inj (Json.int.inj h)
  exact Option.some.inj (by rw [← ofCode?_code, hc, ofCode?_code])

end Opcode

namespace Term

inductive Grammatical : Json → Prop
  | null : Grammatical .null
  | bool (b : Bool) : Grammatical (.bool b)
  | int (n : Int) : Grammatical (.int n)
  | float (x : Binary64) : Grammatical (.float x)
  | string (s : String) : Grammatical (.string s)
  | tagged {entries : List (String × Json)} : Entries.contains entries Datum.tagKey = true →
      Grammatical (.object entries)
  | record {entries : List (String × Json)} : Entries.contains entries Datum.tagKey = false →
      (∀ e ∈ entries, Grammatical e.2) → Grammatical (.object entries)
  | literal (v : Json) (rest : List Json) :
      Grammatical (.array (.int Opcode.datum.code :: v :: rest))
  | bare {op : Opcode} : op ≠ .datum → Grammatical (.array [.int op.code])
  | applied {op : Opcode} {args : List Json} : op ≠ .datum → (∀ v ∈ args, Grammatical v) →
      Grammatical (.array [.int op.code, .array args])
  | optioned {op : Opcode} {args : List Json} {options : List (String × Json)} (rest : List Json) :
      op ≠ .datum → (∀ v ∈ args, Grammatical v) → (∀ e ∈ options, Grammatical e.2) →
      Grammatical (.array (.int op.code :: .array args :: .object options :: rest))

/-- The positions of a value at which a term is expected: not in literals and tagged objects, nor
after the options of an operation. -/
inductive Position : Json → Json → Prop
  | self (v : Json) : Position v v
  | field {u : Json} {e : String × Json} {entries : List (String × Json)} :
      Entries.contains entries Datum.tagKey = false → e ∈ entries → Position u e.2 →
      Position u (.object entries)
  | argument {u v : Json} {op : Opcode} {args rest : List Json} : op ≠ .datum → v ∈ args →
      Position u v → Position u (.array (.int op.code :: .array args :: rest))
  | option {u : Json} {e : String × Json} {op : Opcode} {args rest : List Json}
      {options : List (String × Json)} : op ≠ .datum → e ∈ options → Position u e.2 →
      Position u (.array (.int op.code :: .array args :: .object options :: rest))

inductive Faulty : Json → ProtocolFault → Prop
  | empty : Faulty (.array []) .emptyTerm
  | head {v : Json} (rest : List Json) : (∀ n : Nat, v ≠ .int n) →
      Faulty (.array (v :: rest)) (.opcodeNotNumber v)
  | opcode {n : Nat} (rest : List Json) : (∀ op : Opcode, op.code ≠ n) →
      Faulty (.array (.int n :: rest)) (.unknownOpcode n)
  | literal : Faulty (.array [.int Opcode.datum.code]) .literalMissing
  | arguments {op : Opcode} {v : Json} (rest : List Json) : op ≠ .datum →
      (∀ args, v ≠ .array args) →
      Faulty (.array (.int op.code :: v :: rest)) (.argumentsNotArray op)
  | options {op : Opcode} {v : Json} (args rest : List Json) : op ≠ .datum →
      (∀ options, v ≠ .object options) →
      Faulty (.array (.int op.code :: .array args :: v :: rest)) (.optionsNotObject op)

theorem exists_opcode_of_grammatical {head : Json} {rest : List Json}
    (h : Grammatical (.array (head :: rest))) : ∃ op : Opcode, head = .int op.code := by
  generalize hv : Json.array (head :: rest) = v at h
  cases h with
  | literal | bare | applied | optioned =>
    simp only [Json.array.injEq, List.cons.injEq] at hv
    exact ⟨_, hv.1⟩
  | _ => cases hv

theorem grammatical_literal_iff {rest : List Json} :
    Grammatical (.array (.int Opcode.datum.code :: rest)) ↔ rest ≠ [] := by
  constructor
  · rintro h rfl
    generalize hv : Json.array [.int Opcode.datum.code] = v at h
    cases h with
    | bare hd =>
      simp only [Json.array.injEq, List.cons.injEq] at hv
      exact hd (Opcode.code_inj hv.1).symm
    | _ => simp only [Json.array.injEq, List.cons.injEq, reduceCtorEq, and_false] at hv
  · intro h
    cases rest with
    | nil => exact absurd rfl h
    | cons v r => exact .literal v r

theorem grammatical_operation_iff {op : Opcode} (hd : op ≠ .datum) {rest : List Json} :
    Grammatical (.array (.int op.code :: rest)) ↔ rest = [] ∨
      ∃ args, (∀ v ∈ args, Grammatical v) ∧ (rest = [.array args] ∨
        ∃ options more, rest = .array args :: .object options :: more ∧
          ∀ e ∈ options, Grammatical e.2) := by
  constructor
  · intro h
    generalize hv : Json.array (.int op.code :: rest) = v at h
    cases h with
    | literal v r =>
      simp only [Json.array.injEq, List.cons.injEq] at hv
      exact absurd (Opcode.code_inj hv.1) hd
    | bare =>
      simp only [Json.array.injEq, List.cons.injEq] at hv
      exact .inl hv.2
    | applied _ ha =>
      simp only [Json.array.injEq, List.cons.injEq] at hv
      exact .inr ⟨_, ha, .inl hv.2⟩
    | optioned r _ ha ho =>
      simp only [Json.array.injEq, List.cons.injEq] at hv
      exact .inr ⟨_, ha, .inr ⟨_, r, hv.2, ho⟩⟩
    | _ => cases hv
  · rintro (rfl | ⟨args, ha, rfl | ⟨options, more, rfl, ho⟩⟩)
    · exact .bare hd
    · exact .applied hd ha
    · exact .optioned more hd ha ho

theorem not_faulty_of_grammatical {v : Json} (h : Grammatical v) (f : ProtocolFault) :
    ¬ Faulty v f := by
  intro hf
  cases hf with
  | empty => cases h
  | head rest hn =>
    obtain ⟨op, rfl⟩ := exists_opcode_of_grammatical h
    exact hn op.code rfl
  | opcode rest hn =>
    obtain ⟨op, ho⟩ := exists_opcode_of_grammatical h
    exact hn op (Int.ofNat.inj (Json.int.inj ho)).symm
  | literal => exact grammatical_literal_iff.mp h rfl
  | arguments rest hd hn =>
    rcases (grammatical_operation_iff hd).mp h with hr | ⟨args, -, hr | ⟨options, more, hr, -⟩⟩
    · cases hr
    · exact hn args (List.cons.inj hr).1
    · exact hn args (List.cons.inj hr).1
  | options args rest hd hn =>
    rcases (grammatical_operation_iff hd).mp h with hr | ⟨args, -, hr | ⟨options, more, hr, -⟩⟩
    · cases hr
    · cases hr
    · exact hn options (List.cons.inj (List.cons.inj hr).2).1

theorem Position.grammatical {u v : Json} (h : Position u v) (hv : Grammatical v) :
    Grammatical u := by
  induction h with
  | self => exact hv
  | field ht he _ ih =>
    cases hv with
    | tagged hc => rw [ht] at hc; cases hc
    | record _ hr => exact ih (hr _ he)
  | argument hd hm _ ih =>
    rcases (grammatical_operation_iff hd).mp hv with
      hr | ⟨args, ha, hr | ⟨options, more, hr, -⟩⟩ <;> cases hr
    · exact ih (ha _ hm)
    · exact ih (ha _ hm)
  | option hd hm _ ih =>
    rcases (grammatical_operation_iff hd).mp hv with
      hr | ⟨args, -, hr | ⟨options, more, hr, ho⟩⟩ <;> cases hr
    exact ih (ho _ hm)

def Culprit (v : Json) (f : ProtocolFault) : Prop := ∃ u, Position u v ∧ Faulty u f

theorem Faulty.culprit {v : Json} {f : ProtocolFault} (h : Faulty v f) : Culprit v f :=
  ⟨v, .self v, h⟩

def Tells {α : Type} (x : Except ProtocolFault α) (good : Prop) (bad : ProtocolFault → Prop) :
    Prop :=
  (∀ a, x = .ok a → good) ∧ ∀ f, x = .error f → bad f

section

variable {α β : Type} {x : Except ProtocolFault α} {good good' : Prop}
  {bad bad' : ProtocolFault → Prop}

theorem tells_ok {a : α} (h : good) : Tells (.ok a) good bad :=
  ⟨fun _ _ => h, fun _ hf => nomatch hf⟩

theorem tells_error {f : ProtocolFault} (h : bad f) :
    Tells (α := α) (.error f) good bad :=
  ⟨fun _ ha => (nomatch ha), fun _ hf => (Except.error.inj hf) ▸ h⟩

theorem Tells.imp (h : Tells x good bad) (hg : good → good') (hb : ∀ f, bad f → bad' f) :
    Tells x good' bad' :=
  ⟨fun a ha => hg (h.1 a ha), fun f hf => hb f (h.2 f hf)⟩

theorem Tells.bind {g : α → Except ProtocolFault β} (h : Tells x good bad)
    (hg : good → ∀ a, Tells (g a) good' bad') (hb : ∀ f, bad f → bad' f) :
    Tells (x.bind g) good' bad' := by
  cases x with
  | error f => exact tells_error (hb f (h.2 f rfl))
  | ok a => exact hg (h.1 a rfl) a

theorem Tells.map {g : α → β} (h : Tells x good bad) (hg : good → good')
    (hb : ∀ f, bad f → bad' f) : Tells (x.map g) good' bad' := by
  cases x with
  | error f => exact tells_error (hb f (h.2 f rfl))
  | ok a => exact tells_ok (hg (h.1 a rfl))

end

theorem eq_int_of_asNat? {v : Json} {n : Nat} (h : v.asNat? = some n) : v = .int n := by
  unfold Json.asNat? at h
  split at h
  · rw [← Option.some.inj h]
    rfl
  · cases h

theorem eq_of_opcode {head : Json} {op : Opcode} (h : opcode head = .ok op) :
    head = .int op.code := by
  unfold opcode at h
  split at h
  · cases h
  rename_i n hn
  split at h
  · cases h
  rename_i o ho
  obtain rfl := Except.ok.inj h
  rw [← Opcode.code_of_ofCode? ho]
  exact eq_int_of_asNat? hn

theorem faulty_of_opcode {head : Json} {f : ProtocolFault} (h : opcode head = .error f)
    (rest : List Json) : Faulty (.array (head :: rest)) f := by
  unfold opcode at h
  split at h
  · rename_i hn
    obtain rfl := Except.error.inj h
    refine .head rest ?_
    rintro n rfl
    cases hn
  rename_i n hn
  split at h
  · rename_i ho
    obtain rfl := Except.error.inj h
    rw [eq_int_of_asNat? hn]
    refine .opcode rest ?_
    rintro op rfl
    rw [Opcode.ofCode?_code] at ho
    cases ho
  · cases h

theorem tells_literalOf (rest : List Json) :
    Tells (literalOf rest) (Grammatical (.array (.int Opcode.datum.code :: rest)))
      (Culprit (.array (.int Opcode.datum.code :: rest))) := by
  cases rest with
  | nil => exact tells_error Faulty.literal.culprit
  | cons v r => exact tells_ok (.literal v r)

mutual

theorem tells_ofJson (v : Json) : Tells (ofJson v) (Grammatical v) (Culprit v) := by
  match v with
  | .null => exact tells_ok .null
  | .bool b => exact tells_ok (.bool b)
  | .int n => exact tells_ok (.int n)
  | .float x => exact tells_ok (.float x)
  | .string s => exact tells_ok (.string s)
  | .array [] => exact tells_error Faulty.empty.culprit
  | .array (head :: rest) =>
    rw [ofJson]
    cases ho : opcode head with
    | error f => exact tells_error (faulty_of_opcode ho rest).culprit
    | ok op =>
      obtain rfl := eq_of_opcode ho
      show Tells (if op = .datum then literalOf rest else ofArguments op rest) _ _
      by_cases hd : op = .datum
      · subst hd
        exact tells_literalOf rest
      · rw [if_neg hd]
        exact tells_ofArguments hd rest
  | .object entries =>
    rw [ofJson]
    cases ht : Entries.contains entries Datum.tagKey with
    | true => exact tells_ok (.tagged ht)
    | false =>
      refine (tells_ofEntries entries).map (.record ht) ?_
      rintro f ⟨e, he, u, hu, hf⟩
      exact ⟨u, .field ht he hu, hf⟩

theorem tells_ofArguments {op : Opcode} (hd : op ≠ .datum) (rest : List Json) :
    Tells (ofArguments op rest) (Grammatical (.array (.int op.code :: rest)))
      (Culprit (.array (.int op.code :: rest))) := by
  match rest with
  | [] => exact tells_ok (.bare hd)
  | .array items :: rest =>
    rw [ofArguments]
    refine (tells_ofItems items).bind (fun hi _ => ?_) ?_
    · have ho := tells_ofOptions hd hi rest
      exact ho.map id fun _ => id
    · rintro f ⟨v, hv, u, hu, hf⟩
      exact ⟨u, .argument hd hv hu, hf⟩
  | .null :: rest => exact tells_error (Faulty.arguments rest hd (by simp)).culprit
  | .bool _ :: rest => exact tells_error (Faulty.arguments rest hd (by simp)).culprit
  | .int _ :: rest => exact tells_error (Faulty.arguments rest hd (by simp)).culprit
  | .float _ :: rest => exact tells_error (Faulty.arguments rest hd (by simp)).culprit
  | .string _ :: rest => exact tells_error (Faulty.arguments rest hd (by simp)).culprit
  | .object _ :: rest => exact tells_error (Faulty.arguments rest hd (by simp)).culprit

theorem tells_ofOptions {op : Opcode} (hd : op ≠ .datum) {args : List Json}
    (ha : ∀ v ∈ args, Grammatical v) (rest : List Json) :
    Tells (ofOptions op rest) (Grammatical (.array (.int op.code :: .array args :: rest)))
      (Culprit (.array (.int op.code :: .array args :: rest))) := by
  match rest with
  | [] => exact tells_ok (.applied hd ha)
  | .object entries :: rest =>
    rw [ofOptions]
    refine (tells_ofEntries entries).imp (.optioned rest hd ha) ?_
    rintro f ⟨e, he, u, hu, hf⟩
    exact ⟨u, .option hd he hu, hf⟩
  | .null :: rest => exact tells_error (Faulty.options args rest hd (by simp)).culprit
  | .bool _ :: rest => exact tells_error (Faulty.options args rest hd (by simp)).culprit
  | .int _ :: rest => exact tells_error (Faulty.options args rest hd (by simp)).culprit
  | .float _ :: rest => exact tells_error (Faulty.options args rest hd (by simp)).culprit
  | .string _ :: rest => exact tells_error (Faulty.options args rest hd (by simp)).culprit
  | .array _ :: rest => exact tells_error (Faulty.options args rest hd (by simp)).culprit

theorem tells_ofItems (items : List Json) : Tells (ofItems items) (∀ v ∈ items, Grammatical v)
    fun f => ∃ v ∈ items, Culprit v f := by
  match items with
  | [] => exact tells_ok (List.forall_mem_nil _)
  | v :: r =>
    rw [ofItems]
    refine (tells_ofJson v).bind (fun hv _ => ?_) fun f hf => ⟨v, List.mem_cons_self, hf⟩
    refine (tells_ofItems r).map (fun hr => List.forall_mem_cons.mpr ⟨hv, hr⟩) ?_
    rintro f ⟨u, hu, hf⟩
    exact ⟨u, List.mem_cons_of_mem v hu, hf⟩

theorem tells_ofEntries (entries : List (String × Json)) :
    Tells (ofEntries entries) (∀ e ∈ entries, Grammatical e.2)
      fun f => ∃ e ∈ entries, Culprit e.2 f := by
  match entries with
  | [] => exact tells_ok (List.forall_mem_nil _)
  | (k, v) :: r =>
    rw [ofEntries]
    refine (tells_ofJson v).bind (fun hv _ => ?_) fun f hf => ⟨(k, v), List.mem_cons_self, hf⟩
    refine (tells_ofEntries r).map (fun hr => List.forall_mem_cons.mpr ⟨hv, hr⟩) ?_
    rintro f ⟨e, he, hf⟩
    exact ⟨e, List.mem_cons_of_mem (k, v) he, hf⟩

end

theorem exists_ofJson_iff (v : Json) : (∃ t, ofJson v = .ok t) ↔ Grammatical v := by
  constructor
  · rintro ⟨t, ht⟩
    exact (tells_ofJson v).1 t ht
  · intro hv
    cases hr : ofJson v with
    | ok t => exact ⟨t, rfl⟩
    | error f =>
      obtain ⟨u, hu, hf⟩ := (tells_ofJson v).2 f hr
      exact absurd hf (not_faulty_of_grammatical (hu.grammatical hv) f)

theorem exists_error_of_not_grammatical {v : Json} (h : ¬ Grammatical v) :
    ∃ f, ofJson v = .error f := by
  cases hr : ofJson v with
  | ok t => exact absurd ((tells_ofJson v).1 t hr) h
  | error f => exact ⟨f, rfl⟩

/-- Reading accepts exactly the grammar. Every refusal is a fault of the protocol, and a true one of
some position in the value; and a position that is not of the grammar, however deep, is refused with
all that it stands in. A text is read as the value that it spells. -/
theorem ofJson_accepts_grammar :
    (∀ v, (∃ t, ofJson v = .ok t) ↔ Grammatical v) ∧
      (∀ v e, (ofJson v).mapError Error.protocol = .error e →
        ∃ f, e = .protocol f ∧ ∃ u, Position u v ∧ Faulty u f) ∧
      (∀ u v, Position u v → ¬ Grammatical u → ∃ f, ofJson v = .error f) ∧
      ∀ text v, Json.ofText? text = some v → read text = (ofJson v).mapError Error.protocol := by
  refine ⟨exists_ofJson_iff, ?_, ?_, ?_⟩
  · intro v e he
    cases hr : ofJson v with
    | ok t =>
      rw [hr] at he
      cases he
    | error f =>
      rw [hr] at he
      exact ⟨f, (Except.error.inj he).symm, (tells_ofJson v).2 f hr⟩
  · intro u v hu hn
    exact exists_error_of_not_grammatical fun hv => hn (hu.grammatical hv)
  · intro text v hv
    rw [read, hv]

theorem ofJson_accepts_grammar_table :
    let bad : Json := .array [.int 999]
    let table (v : Json) : Json := .array [.int Opcode.table.code,
      .array [.array [.int Opcode.datum.code, bad], .string "users"],
      .object [("read_mode", .object [("mode", v)])], bad]
    Position bad (table bad) ∧ ¬ Grammatical bad ∧ (∃ f, ofJson (table bad) = .error f) ∧
      ∃ t, ofJson (table (.string "outdated")) = .ok t := by
  intro bad table
  have hd : Opcode.table ≠ .datum := by decide
  have hu : Position bad (table bad) := .option hd List.mem_cons_self
    (.field (by decide) List.mem_cons_self (.self bad))
  have hn : ¬ Grammatical bad := by
    intro h
    obtain ⟨op, ho⟩ := exists_opcode_of_grammatical h
    have hc := Opcode.ofCode?_code op
    have hu : Opcode.ofCode? 999 = none := by decide
    rw [← show 999 = op.code from Int.ofNat.inj (Json.int.inj ho), hu] at hc
    cases hc
  have hg : Grammatical (table (.string "outdated")) := by
    refine .optioned _ hd (List.forall_mem_cons.mpr ⟨.literal bad [], ?_⟩) ?_
    · exact List.forall_mem_singleton.mpr (.string "users")
    · refine List.forall_mem_singleton.mpr (.record (by decide) ?_)
      exact List.forall_mem_singleton.mpr (.string "outdated")
  exact ⟨hu, hn, ofJson_accepts_grammar.2.2.1 _ _ hu hn, (ofJson_accepts_grammar.1 _).mpr hg⟩

end Term

end ReqlDriver
