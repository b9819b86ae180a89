import Mathlib.Algebra.Order.Group.Multiset
import Mathlib.Data.Multiset.Filter
import Mathlib.Data.Multiset.MapFold
import ReqlDriver.Proofs.Connection.Orderly

/-!
Who holds the tokens of a connection. Everything that can still make the connection send something
is a holder: a task, a cursor in the callers' hands, and a dropped cursor of which the server is
still to be told.
-/

namespace ReqlDriver

def Work.frame? : Work → Option Frame
  | frame f => some f
  | shutdown => none

inductive Holder
  | task (t : Task)
  | cursor (k : Cursor)
  | dropped (token : UInt64)

namespace Holder

def token? : Holder → Option UInt64
  | task t => t.work.frame?.map Frame.token
  | cursor k => some k.token
  | dropped token => some token

def mapTask (f : Task → Task) : Holder → Holder
  | task t => task (f t)
  | h => h

@[simp] theorem mapTask_task (f : Task → Task) (t : Task) : (task t).mapTask f = task (f t) := rfl

@[simp] theorem mapTask_cursor (f : Task → Task) (k : Cursor) :
    (cursor k).mapTask f = cursor k := rfl

@[simp] theorem mapTask_dropped (f : Task → Task) (token : UInt64) :
    (dropped token).mapTask f = dropped token := rfl

@[simp] theorem mapTask_id : mapTask (fun t => t) = id := by
  funext h
  cases h <;> rfl

end Holder

def Cursor.remains (k : Cursor) : Option Holder :=
  if k.exhausted then none else some (.dropped k.token)

namespace Client

def holders (c : Client) : Multiset Holder :=
  (c.tasks.map Holder.task : Multiset Holder) + (c.cursors.map Holder.cursor : Multiset Holder) +
    (c.stopping.map Holder.dropped : Multiset Holder)

variable {c : Client} {k : Cursor} {t : Task}

@[simp] theorem task_mem_holders : .task t ∈ c.holders ↔ t ∈ c.tasks := by
  simp [holders]

@[simp] theorem cursor_mem_holders : .cursor k ∈ c.holders ↔ k ∈ c.cursors := by
  simp [holders]

@[simp] theorem dropped_mem_holders {token : UInt64} :
    .dropped token ∈ c.holders ↔ token ∈ c.stopping := by
  simp [holders]

@[simp] theorem holders_finish (c : Client) (id : Nat) (outcome : Except Error Outcome) :
    (c.finish id outcome).holders = c.holders := rfl

@[simp] theorem holders_spawn (c : Client) (t : Task) :
    (c.spawn t).holders = .task t ::ₘ c.holders := by
  simp only [holders, spawn, List.map_append, ← Multiset.coe_add, List.map_singleton,
    Multiset.coe_singleton, add_comm _ {Holder.task t}, add_assoc, Multiset.singleton_add,
    Multiset.cons_add]

@[simp] theorem holders_hold (c : Client) (k : Cursor) :
    (c.hold k).holders = .cursor k ::ₘ c.holders := by
  simp only [holders, hold, List.map_cons, ← Multiset.cons_coe, Multiset.add_cons,
    Multiset.cons_add]

@[simp] theorem holders_abandon (c : Client) (k : Cursor) :
    (c.abandon k).holders = (k.remains.toList : Multiset Holder) + c.holders := by
  unfold abandon Cursor.remains
  cases k.exhausted with
  | true => simp
  | false =>
    simp only [Bool.false_eq_true, if_false, holders, List.map_append, ← Multiset.coe_add,
      List.map_singleton, Option.toList_some, ← add_assoc]
    exact add_comm _ _

theorem holders_mapTasks (c : Client) (f : Task → Task) :
    { c with tasks := c.tasks.map f }.holders = c.holders.map (Holder.mapTask f) := by
  simp [holders, Function.comp_def]

theorem tokens_mapTask {f : Task → Task} (hf : ∀ t ∈ c.tasks, (f t).work = t.work) :
    (c.holders.map (Holder.mapTask f)).filterMap Holder.token? =
      c.holders.filterMap Holder.token? := by
  have ht : (c.tasks.filterMap fun t => (Holder.task (f t)).token?) =
      c.tasks.filterMap fun t => (Holder.task t).token? := by
    apply List.filterMap_congr
    intro t ht
    simp only [Holder.token?, hf t ht]
  simp [holders, List.filterMap_map,
    Function.comp_def, ht]

theorem perm_cons_filter_ne {α β : Type} [DecidableEq β] {g : α → β} {xs : List α} {a : α}
    (hn : (xs.map g).Nodup) (ha : a ∈ xs) : xs.Perm (a :: xs.filter fun b => g b != g a) := by
  have hf : xs.filter (fun b => g b == g a) = [a] := by
    apply filter_eq_singleton hn ha
    · simp
    · intro b _ hb
      simpa using hb
  have hp := (List.filter_append_perm (fun b => g b == g a) xs).symm
  rw [hf] at hp
  exact hp

theorem holders_dismiss (ids : (c.tasks.map Task.id).Nodup) (ht : t ∈ c.tasks) :
    c.holders = .task t ::ₘ (c.dismiss t).holders := by
  have hd : (c.dismiss t).holders =
      { c with tasks := c.tasks.filter fun u => u.id != t.id }.holders := by
    unfold dismiss
    cases t.purpose.awaits <;> cases t.work <;> rfl
  have hp := (perm_cons_filter_ne ids ht).map Holder.task
  have hm : (c.tasks.map Holder.task : Multiset Holder) = .task t ::ₘ
      ((c.tasks.filter fun u => u.id != t.id).map Holder.task : Multiset Holder) :=
    Multiset.coe_eq_coe.mpr hp
  rw [hd]
  simp only [holders, hm, Multiset.cons_add]

theorem holders_take (tokens : (c.cursors.map Cursor.token).Nodup) (hk : k ∈ c.cursors) :
    c.holders = .cursor k ::ₘ (c.take k.token).holders := by
  have hp := (perm_cons_filter_ne tokens hk).map Holder.cursor
  have hm : (c.cursors.map Holder.cursor : Multiset Holder) = .cursor k ::ₘ
      ((c.cursors.filter fun j => j.token != k.token).map Holder.cursor : Multiset Holder) :=
    Multiset.coe_eq_coe.mpr hp
  simp only [take, holders, hm, Multiset.add_cons, Multiset.cons_add]

theorem holders_tell {token : UInt64} (ht : token ∈ c.stopping) :
    c.holders = .dropped token ::ₘ { c with stopping := c.stopping.erase token }.holders := by
  have hp := (List.perm_cons_erase ht).map Holder.dropped
  have hm : (c.stopping.map Holder.dropped : Multiset Holder) = .dropped token ::ₘ
      ((c.stopping.erase token).map Holder.dropped : Multiset Holder) := Multiset.coe_eq_coe.mpr hp
  simp only [holders, hm, Multiset.add_cons]

end Client

end ReqlDriver
