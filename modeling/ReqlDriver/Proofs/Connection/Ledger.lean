import Mathlib.Data.List.Induction
import Mathlib.Data.List.Nodup
import ReqlDriver.Proofs.Connection.Exchange
import ReqlDriver.Proofs.Connection.Routing

namespace ReqlDriver.Waiters

inductive Operation
  | register (token : UInt64)
  | dispatch (f : Frame)
  | remove (token : UInt64)
  | failAll

def Operation.takes : Operation → UInt64 → Bool
  | register _, _ => false
  | dispatch f, token => token == f.token
  | remove t, token => token == t
  | failAll, _ => true

def perform (w : Waiters) (now : Nat) : Operation → Waiters
  | .register token => (w.register token now).toOption.getD w
  | .dispatch f => (w.dispatch f).2
  | .remove token => w.remove token
  | .failAll => w.failAll.2

def leavers (w : Waiters) : Operation → List (Nat × Option Answer)
  | .register _ => []
  | .dispatch f => (w.dispatch f).1.map fun p => (p.1, some p.2)
  | .remove token => (w.get? token).toList.map fun id => (id, none)
  | .failAll => w.failAll.1.map fun p => (p.1, some p.2)

structure Departure where
  waiter : Nat
  time : Nat
  told : Option Answer

structure Ledger where
  table : Waiters := {}
  time : Nat := 0
  entered : List (Nat × UInt64) := []
  departed : List Departure := []

namespace Ledger

def enter (l : Ledger) : Operation → List (Nat × UInt64)
  | .register token => if (l.table.register token l.time).isOk then [(l.time, token)] else []
  | _ => []

def note (l : Ledger) (o : Operation) : Ledger where
  table := l.table.perform l.time o
  time := l.time + 1
  entered := l.entered ++ l.enter o
  departed := l.departed ++ (l.table.leavers o).map fun p => ⟨p.1, l.time, p.2⟩

def ofOperations (operations : List Operation) : Ledger := operations.foldl note {}

end Ledger

inductive Fate
  | pending
  | answered (time : Nat) (f : Frame)
  | failed (time : Nat)
  | removed (time : Nat)

def Fate.cause (token : UInt64) : Fate → Option (Nat × Operation)
  | .pending => none
  | .answered time f => some (time, .dispatch f)
  | .failed time => some (time, .failAll)
  | .removed time => some (time, .remove token)

theorem Fate.cause_injective (token : UInt64) : (Fate.cause token).Injective := by
  intro a b h
  cases a <;> cases b <;> simp_all [cause]

/-- A waiter of a token has a fate by the operations so far. Whoever left did so after it was
entered, through an operation on its own token or on all of them. -/
def Ledger.Meets (l : Ledger) (operations : List Operation) (waiter : Nat) (token : UInt64) :
    Fate → Prop
  | .pending => (token, waiter) ∈ l.table.pending
  | .answered time f => ⟨waiter, time, some f.answer⟩ ∈ l.departed ∧ waiter < time ∧
      operations[time]? = some (.dispatch f) ∧ f.token = token
  | .failed time => ⟨waiter, time, some (.error .connectionClosed)⟩ ∈ l.departed ∧ waiter < time ∧
      operations[time]? = some .failAll
  | .removed time => ⟨waiter, time, none⟩ ∈ l.departed ∧ waiter < time ∧
      operations[time]? = some (.remove token)

def Operation.told : Operation → Option Answer
  | dispatch f => some f.answer
  | failAll => some (.error .connectionClosed)
  | _ => none

def Operation.closes : Operation → Bool
  | failAll => true
  | _ => false

theorem Operation.cases_of_takes {o : Operation} {token : UInt64} (h : o.takes token = true) :
    (∃ f, o = .dispatch f ∧ f.token = token) ∨ o = .failAll ∨ o = .remove token := by
  cases o with
  | register t => cases h
  | dispatch f => exact .inl ⟨f, rfl, (beq_iff_eq.mp h).symm⟩
  | remove t =>
    obtain rfl := beq_iff_eq.mp h
    exact .inr (.inr rfl)
  | failAll => exact .inr (.inl rfl)

theorem dispatch_eq (w : Waiters) (f : Frame) :
    w.dispatch f = ((w.get? f.token).toList.map fun id => (id, f.answer), w.remove f.token) := by
  cases hg : w.get? f.token with
  | none =>
    have hn : f.token ∉ w.pending.map (·.1) :=
      lookup_eq_none_iff_not_mem.mp hg
    rw [dispatch_of_not_mem hn, Client.remove_of_not_mem hn]
    rfl
  | some id => exact dispatch_of_get? hg

theorem filter_token {w : Waiters} (tokens : (w.pending.map (·.1)).Nodup) (token : UInt64) :
    (w.pending.filter fun p => p.1 == token) =
      (w.get? token).toList.map fun id => (token, id) := by
  cases hg : w.get? token with
  | none =>
    have hn : token ∉ w.pending.map (·.1) :=
      lookup_eq_none_iff_not_mem.mp hg
    apply List.filter_eq_nil_iff.mpr
    intro p hp he
    exact hn (beq_iff_eq.mp he ▸ List.mem_map_of_mem hp)
  | some id =>
    apply filter_eq_singleton tokens (mem_of_lookup_eq_some hg)
    · simp
    · intro p _ hp
      simpa using hp

theorem perform_eq {w : Waiters} {now : Nat} {o : Operation}
    (ho : ∀ token, o = .register token → ∃ e, w.register token now = .error e) :
    w.perform now o =
      { pending := w.pending.filter fun p => !o.takes p.1, closed := w.closed || o.closes } := by
  cases o with
  | register token =>
    obtain ⟨e, he⟩ := ho token rfl
    have hf : w.pending.filter (fun _ => true) = w.pending := List.filter_eq_self.mpr fun _ _ => rfl
    simp [perform, he, Except.toOption, Operation.takes, Operation.closes, hf]
  | dispatch f => simp [perform, dispatch_eq, remove, Operation.takes, Operation.closes, bne]
  | remove token => simp [perform, remove, Operation.takes, Operation.closes, bne]
  | failAll => simp [perform, failAll, Operation.takes, Operation.closes]

theorem leavers_eq {w : Waiters} (tokens : (w.pending.map (·.1)).Nodup) (o : Operation) :
    w.leavers o = (w.pending.filter fun p => o.takes p.1).map fun p => (p.2, o.told) := by
  cases o with
  | register token => simp [leavers, Operation.takes]
  | dispatch f =>
    have hf := filter_token tokens f.token
    simp [leavers, dispatch_eq, Operation.takes, Operation.told, hf, Function.comp_def]
  | remove token =>
    have hf := filter_token tokens token
    simp [leavers, Operation.takes, Operation.told, hf]
  | failAll =>
    have hf : w.pending.filter (fun _ => true) = w.pending := List.filter_eq_self.mpr fun _ _ => rfl
    simp [leavers, failAll, Operation.takes, Operation.told, hf, Function.comp_def]

structure Ledger.Balanced (l : Ledger) (operations : List Operation) : Prop where
  time : l.time = operations.length
  tokens : (l.table.pending.map (·.1)).Nodup
  numbers : (l.entered.map (·.1)).Nodup
  entered : ∀ e ∈ l.entered, operations[e.1]? = some (.register e.2)
  pending : ∀ p ∈ l.table.pending, (p.2, p.1) ∈ l.entered
  once : (l.departed.map Departure.waiter).Nodup
  departed : ∀ d ∈ l.departed, d.waiter ∈ l.entered.map (·.1) ∧
    d.waiter ∉ l.table.pending.map (·.2)
  fates : ∀ e ∈ l.entered, (e.2, e.1) ∈ l.table.pending ∨
    ∃ fate, fate ≠ .pending ∧ l.Meets operations e.1 e.2 fate
  closed : .failAll ∈ operations → l.table.closed = true
  empty : l.table.closed = true → l.table.pending = []

namespace Ledger

variable {l : Ledger} {operations : List Operation}

theorem Balanced.lt_time (h : l.Balanced operations) {e : Nat × UInt64} (he : e ∈ l.entered) :
    e.1 < l.time := by
  rw [h.time]
  exact (List.getElem?_eq_some_iff.mp (h.entered e he)).1

theorem getElem?_snoc {i : Nat} {o : Operation} (h : operations[i]? = some o)
    (more : Operation) : (operations ++ [more])[i]? = some o := by
  rw [List.getElem?_append_left (List.getElem?_eq_some_iff.mp h).1]
  exact h

theorem Meets.note {waiter : Nat} {token : UInt64} {fate : Fate} (hf : fate ≠ .pending)
    (h : l.Meets operations waiter token fate) (o : Operation) :
    (l.note o).Meets (operations ++ [o]) waiter token fate := by
  cases fate with
  | pending => exact absurd rfl hf
  | answered time f =>
    obtain ⟨hd, hw, ho, ht⟩ := h
    exact ⟨List.mem_append_left _ hd, hw, getElem?_snoc ho o, ht⟩
  | failed time =>
    obtain ⟨hd, hw, ho⟩ := h
    exact ⟨List.mem_append_left _ hd, hw, getElem?_snoc ho o⟩
  | removed time =>
    obtain ⟨hd, hw, ho⟩ := h
    exact ⟨List.mem_append_left _ hd, hw, getElem?_snoc ho o⟩

theorem Balanced.enter (h : l.Balanced operations) {token : UInt64} {w : Waiters}
    (hr : l.table.register token l.time = .ok w) :
    (l.note (.register token)).Balanced (operations ++ [.register token]) := by
  obtain ⟨hc, hn, rfl⟩ := Client.register_eq_ok_iff.mp hr
  have hnew : ∀ e ∈ l.entered, e.1 ≠ l.time := fun e he => Nat.ne_of_lt (h.lt_time he)
  have hl : l.note (.register token) = {
      table := { l.table with pending := (token, l.time) :: l.table.pending }
      time := l.time + 1
      entered := l.entered ++ [(l.time, token)]
      departed := l.departed } := by
    simp [note, perform, Ledger.enter, leavers, hr, Except.toOption, Except.isOk, Except.toBool]
  have hf : ∀ e ∈ l.entered, (e.2, e.1) ∈ (l.note (.register token)).table.pending ∨
      ∃ fate, fate ≠ .pending ∧
        (l.note (.register token)).Meets (operations ++ [.register token]) e.1 e.2 fate := by
    intro e he
    rcases h.fates e he with hp | ⟨fate, hne, hm⟩
    · rw [hl]
      exact .inl (List.mem_cons_of_mem _ hp)
    · exact .inr ⟨fate, hne, hm.note hne _⟩
  rw [hl] at hf ⊢
  refine ⟨by simp [h.time], ?_, ?_, ?_, ?_, h.once, ?_, ?_, fun hm => h.closed (by simpa using hm), ?_⟩
  · exact List.nodup_cons.mpr ⟨hn, h.tokens⟩
  · simp only [List.map_append, List.nodup_append]
    refine ⟨h.numbers, by simp, ?_⟩
    intro i hi j hj
    obtain ⟨e, he, rfl⟩ := List.mem_map.mp hi
    obtain rfl := List.mem_singleton.mp hj
    exact hnew e he
  · intro e he
    rcases List.mem_append.mp he with he | he
    · exact getElem?_snoc (h.entered e he) _
    · obtain rfl := List.mem_singleton.mp he
      simp [h.time]
  · intro p hp
    rcases List.mem_cons.mp hp with rfl | hp
    · exact List.mem_append_right _ List.mem_cons_self
    · exact List.mem_append_left _ (h.pending p hp)
  · intro d hd
    obtain ⟨he, ha⟩ := h.departed d hd
    obtain ⟨e, hm, hw⟩ := List.mem_map.mp he
    refine ⟨by simp [he], ?_⟩
    have hne : d.waiter ≠ l.time := hw ▸ hnew e hm
    simpa [hne] using ha
  · intro e he
    rcases List.mem_append.mp he with he | he
    · exact hf e he
    · obtain rfl := List.mem_singleton.mp he
      exact .inl List.mem_cons_self
  · intro ht
    rw [hc] at ht
    cases ht

theorem Balanced.leave (h : l.Balanced operations) {o : Operation}
    (ho : ∀ token, o = .register token → ∃ e, l.table.register token l.time = .error e) :
    (l.note o).Balanced (operations ++ [o]) := by
  let leaving := l.table.pending.filter fun p => o.takes p.1
  have he : l.enter o = [] := by
    cases o with
    | register token =>
      obtain ⟨e, he⟩ := ho token rfl
      simp [Ledger.enter, he, Except.isOk, Except.toBool]
    | _ => rfl
  have hl : l.note o = {
      table := {
        pending := l.table.pending.filter fun p => !o.takes p.1
        closed := l.table.closed || o.closes }
      time := l.time + 1
      entered := l.entered
      departed := l.departed ++ leaving.map fun p => ⟨p.2, l.time, o.told⟩ } := by
    simp [note, perform_eq ho, leavers_eq h.tokens, he, leaving, Function.comp_def]
  have hleave : ∀ p ∈ leaving, p ∈ l.table.pending ∧ o.takes p.1 = true :=
    fun p hp => List.mem_filter.mp hp
  -- a number belongs to one token only
  have hids : ∀ p ∈ l.table.pending, ∀ q ∈ l.table.pending, p.2 = q.2 → p = q := by
    intro p hp q hq hi
    have hpq := eq_of_nodup_map h.numbers (h.pending p hp) (h.pending q hq) hi
    simp only [Prod.mk.injEq] at hpq
    exact Prod.ext hpq.2 hpq.1
  have hnumbers : (leaving.map (·.2)).Nodup := by
    apply List.Nodup.map_on
    · intro p hp q hq
      exact hids p (hleave p hp).1 q (hleave q hq).1
    · exact (List.Nodup.of_map _ h.tokens).filter _
  have hfate : ∀ p ∈ leaving, ∃ fate, fate ≠ .pending ∧
      (l.note o).Meets (operations ++ [o]) p.2 p.1 fate := by
    intro p hp
    have hm : ⟨p.2, l.time, o.told⟩ ∈ (l.note o).departed := by
      rw [hl]
      exact List.mem_append_right _ (List.mem_map_of_mem hp)
    have hlt : p.2 < l.time := h.lt_time (h.pending p (hleave p hp).1)
    have hop : (operations ++ [o])[l.time]? = some o := by simp [h.time]
    rcases Operation.cases_of_takes (hleave p hp).2 with ⟨f, rfl, ht⟩ | rfl | rfl
    · exact ⟨.answered l.time f, nofun, hm, hlt, hop, ht⟩
    · exact ⟨.failed l.time, nofun, hm, hlt, hop⟩
    · exact ⟨.removed l.time, nofun, hm, hlt, hop⟩
  have hf : ∀ e ∈ l.entered, (e.2, e.1) ∈ (l.note o).table.pending ∨
      ∃ fate, fate ≠ .pending ∧ (l.note o).Meets (operations ++ [o]) e.1 e.2 fate := by
    intro e he
    rcases h.fates e he with hp | ⟨fate, hne, hm⟩
    · cases ht : o.takes e.2 with
      | true => exact .inr (hfate _ (List.mem_filter.mpr ⟨hp, ht⟩))
      | false =>
        rw [hl]
        exact .inl (List.mem_filter.mpr ⟨hp, by simp [ht]⟩)
    · exact .inr ⟨fate, hne, hm.note hne _⟩
  rw [hl] at hf ⊢
  refine ⟨by simp [h.time], h.tokens.sublist (List.filter_sublist.map _), h.numbers, ?_, ?_, ?_, ?_,
    hf, ?_, ?_⟩
  · exact fun e he => getElem?_snoc (h.entered e he) _
  · exact fun p hp => h.pending p (List.mem_filter.mp hp).1
  · simp only [List.map_append, List.map_map, List.nodup_append]
    refine ⟨h.once, hnumbers, ?_⟩
    intro i hi j hj hij
    obtain ⟨d, hd, rfl⟩ := List.mem_map.mp hi
    obtain ⟨p, hp, rfl⟩ := List.mem_map.mp hj
    apply (h.departed d hd).2
    rw [hij]
    exact List.mem_map_of_mem (hleave p hp).1
  · intro d hd
    rcases List.mem_append.mp hd with hd | hd
    · obtain ⟨he, ha⟩ := h.departed d hd
      exact ⟨he, fun hm => ha ((List.filter_sublist.map _).subset hm)⟩
    · obtain ⟨p, hp, rfl⟩ := List.mem_map.mp hd
      obtain ⟨hm, ht⟩ := hleave p hp
      refine ⟨List.mem_map_of_mem (h.pending p hm), ?_⟩
      intro ha
      obtain ⟨q, hq, hi⟩ := List.mem_map.mp ha
      obtain ⟨hqm, hqt⟩ := List.mem_filter.mp hq
      obtain rfl := hids q hqm p hm hi
      simp [ht] at hqt
  · intro hm
    rcases List.mem_append.mp hm with hm | hm
    · simp [h.closed hm]
    · obtain rfl := List.mem_singleton.mp hm
      simp [Operation.closes]
  · intro hc
    cases hcl : l.table.closed with
    | true => simp [h.empty hcl]
    | false =>
      have ho : o = .failAll := by
        cases o <;> simp [hcl, Operation.closes] at hc ⊢
      simp [ho, Operation.takes]

theorem Balanced.note (h : l.Balanced operations) (o : Operation) :
    (l.note o).Balanced (operations ++ [o]) := by
  by_cases hr : ∃ token w, o = .register token ∧ l.table.register token l.time = .ok w
  · obtain ⟨token, w, rfl, hr⟩ := hr
    exact h.enter hr
  · apply h.leave
    rintro token rfl
    cases he : l.table.register token l.time with
    | ok w => exact absurd ⟨token, w, rfl, he⟩ hr
    | error e => exact ⟨e, rfl⟩

theorem balanced_ofOperations (operations : List Operation) :
    (ofOperations operations).Balanced operations := by
  induction operations using List.reverseRecOn with
  | nil =>
    exact ⟨rfl, .nil, .nil, List.forall_mem_nil _, List.forall_mem_nil _, .nil,
      List.forall_mem_nil _, List.forall_mem_nil _, nofun, nofun⟩
  | append_singleton operations o ih =>
    rw [ofOperations, List.foldl_append]
    exact ih.note o

theorem Meets.cause {waiter : Nat} {token : UInt64} {fate : Fate}
    (h : l.Meets operations waiter token fate) :
    fate = .pending ∧ (token, waiter) ∈ l.table.pending ∨
      ∃ d ∈ l.departed, d.waiter = waiter ∧
        ∃ o, operations[d.time]? = some o ∧ fate.cause token = some (d.time, o) := by
  cases fate with
  | pending => exact .inl ⟨rfl, h⟩
  | answered time f => exact .inr ⟨_, h.1, rfl, _, h.2.2.1, rfl⟩
  | failed time => exact .inr ⟨_, h.1, rfl, _, h.2.2, rfl⟩
  | removed time => exact .inr ⟨_, h.1, rfl, _, h.2.2, rfl⟩

theorem Balanced.existsUnique_fate (h : l.Balanced operations) {e : Nat × UInt64}
    (he : e ∈ l.entered) : ∃! fate, l.Meets operations e.1 e.2 fate := by
  have haway : ∀ d ∈ l.departed, d.waiter = e.1 → (e.2, e.1) ∉ l.table.pending := by
    intro d hd hw hp
    exact (h.departed d hd).2 (hw ▸ List.mem_map_of_mem hp)
  have hunique : ∀ a b, l.Meets operations e.1 e.2 a → l.Meets operations e.1 e.2 b → a = b := by
    intro a b ha hb
    rcases ha.cause with ⟨rfl, hp⟩ | ⟨d, hd, hw, o, ho, hc⟩
    · rcases hb.cause with ⟨rfl, -⟩ | ⟨d, hd, hw, -⟩
      · rfl
      · exact absurd hp (haway d hd hw)
    · rcases hb.cause with ⟨rfl, hp⟩ | ⟨d', hd', hw', o', ho', hc'⟩
      · exact absurd hp (haway d hd hw)
      · obtain rfl := eq_of_nodup_map h.once hd hd' (hw.trans hw'.symm)
        obtain rfl := Option.some.inj (ho.symm.trans ho')
        exact Fate.cause_injective e.2 (hc.trans hc'.symm)
  rcases h.fates e he with hp | ⟨fate, -, hm⟩
  · exact ⟨.pending, hp, fun b hb => hunique _ _ hb hp⟩
  · exact ⟨fate, hm, fun b hb => hunique _ _ hb hm⟩

end Ledger

/-- A table keeps one waiter of a token at most, and every waiter that it ever took in has exactly
one fate. It takes in all that it should, and an operation reaches whoever waits for it. What is
refused or meant for nobody changes nothing, and after the end nobody comes in. -/
theorem waiters_accounted (operations : List Operation) :
    let l := Ledger.ofOperations operations
    (l.table.pending.map (·.1)).Nodup ∧
      (∀ e ∈ l.entered, ∃! fate, l.Meets operations e.1 e.2 fate) ∧
      (l.entered.map (·.1)).Nodup ∧ (l.departed.map Departure.waiter).Nodup ∧
      (∀ p ∈ l.table.pending, (p.2, p.1) ∈ l.entered) ∧
      (∀ d ∈ l.departed, d.waiter ∈ l.entered.map (·.1)) ∧
      (∀ token, l.table.closed = false → token ∉ l.table.pending.map (·.1) →
        (l.time, token) ∈ (l.note (.register token)).entered ∧
          (token, l.time) ∈ (l.note (.register token)).table.pending) ∧
      (∀ token, l.table.closed = true ∨ token ∈ l.table.pending.map (·.1) →
        l.table.register token l.time = .error (if l.table.closed then .connectionClosed
          else .protocol (.tokenInUse token.toNat)) ∧
          l.note (.register token) = { l with time := l.time + 1 }) ∧
      (∀ o, ∀ p ∈ l.table.pending, o.takes p.1 = true →
        ⟨p.2, l.time, o.told⟩ ∈ (l.note o).departed) ∧
      (∀ f, f.token ∉ l.table.pending.map (·.1) →
        l.note (.dispatch f) = { l with time := l.time + 1 }) ∧
      (.failAll ∈ operations → l.table.closed = true ∧ l.table.pending = [] ∧
        ∀ token id, l.table.register token id = .error .connectionClosed) := by
  intro l
  have h : l.Balanced operations := Ledger.balanced_ofOperations operations
  refine ⟨h.tokens, fun e he => h.existsUnique_fate he, h.numbers, h.once, h.pending,
    fun d hd => (h.departed d hd).1, ?_, ?_, ?_, ?_, ?_⟩
  · intro token hc hn
    have hr : l.table.register token l.time = .ok _ :=
      Client.register_eq_ok_iff.mpr ⟨hc, hn, rfl⟩
    simp [Ledger.note, perform, Ledger.enter, hr, Except.toOption, Except.isOk, Except.toBool]
  · intro token hr
    have he : l.table.register token l.time = .error (if l.table.closed then .connectionClosed
        else .protocol (.tokenInUse token.toNat)) := by
      apply register_eq_error_iff.mpr
      cases hc : l.table.closed with
      | true => exact .inl ⟨rfl, rfl⟩
      | false => exact .inr ⟨rfl, hr.resolve_left (by simp [hc]), rfl⟩
    refine ⟨he, ?_⟩
    simp [Ledger.note, perform, Ledger.enter, leavers, he, Except.toOption, Except.isOk,
      Except.toBool]
  · intro o p hp ht
    have hm : (p.2, o.told) ∈ l.table.leavers o := by
      rw [leavers_eq h.tokens o]
      exact List.mem_map_of_mem (List.mem_filter.mpr ⟨hp, ht⟩)
    exact List.mem_append_right _ (List.mem_map_of_mem hm)
  · intro f hn
    simp [Ledger.note, perform, Ledger.enter, leavers, dispatch_of_not_mem hn]
  · intro hm
    have hc := h.closed hm
    exact ⟨hc, h.empty hc, fun token id => register_eq_error_iff.mpr (.inl ⟨hc, rfl⟩)⟩

theorem waiters_accounted_four :
    let operations : List Operation := [.register 1, .register 2, .register 3, .register 2,
      .dispatch ⟨2, .null⟩, .dispatch ⟨2, .null⟩, .remove 3, .register 3, .failAll, .register 4]
    let l := Ledger.ofOperations operations
    l.entered = [(0, 1), (1, 2), (2, 3), (7, 3)] ∧
      l.Meets operations 1 2 (.answered 4 ⟨2, .null⟩) ∧
      (∃! fate, l.Meets operations 1 2 fate) ∧ (∃! fate, l.Meets operations 2 3 fate) ∧
      l.table.closed = true ∧ l.table.pending = [] := by
  intro operations l
  have he : l.entered = [(0, 1), (1, 2), (2, 3), (7, 3)] := by decide
  have hd : ⟨1, 4, some (Frame.answer ⟨2, .null⟩)⟩ ∈ l.departed :=
    List.mem_of_getElem? (show l.departed[0]? = _ from rfl)
  obtain ⟨-, hf, -, -, -, -, -, -, -, -, hc⟩ := waiters_accounted operations
  have hend := hc (by simp [operations])
  exact ⟨he, ⟨hd, by decide, rfl, rfl⟩, hf (1, 2) (he ▸ by simp), hf (2, 3) (he ▸ by simp), hend.1,
    hend.2.1⟩

end ReqlDriver.Waiters
