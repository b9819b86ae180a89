import Mathlib.Data.List.Induction
import ReqlDriver.Proofs.Connection.Regular

namespace ReqlDriver.Client

def queues (c : Client) (e : Event) : List Frame :=
  ((c.step e).queue.drop c.queue.length).filterMap fun w => w.1.frame?

def queued (c : Client) : List Event → List Frame
  | [] => []
  | e :: r => c.queues e ++ (c.step e).queued r

def opened (c : Client) : List Event → List Frame
  | [] => []
  | e :: r => c.opens e ++ (c.step e).opened r

def Once (P : Client → Event → Prop) (c : Client) : List Event → Prop
  | [] => False
  | e :: r => P c e ∨ Once P (c.step e) r

def on (token : UInt64) (frames : List Frame) : List Frame :=
  frames.filter fun f => f.token == token

variable {c : Client} {e : Event} {t : Task} {j : Holder} {token : UInt64}

theorem after_append (c : Client) (before later : List Event) :
    c.after (before ++ later) = (c.after before).after later := List.foldl_append

theorem after_concat (c : Client) (events : List Event) (e : Event) :
    c.after (events ++ [e]) = (c.after events).step e := after_append c events [e]

theorem issued_le_append (c : Client) (before later : List Event) :
    (c.after before).issued ≤ (c.after (before ++ later)).issued := by
  rw [after_append]
  exact issued_le_after _ _

theorem queued_append (c : Client) (before later : List Event) :
    c.queued (before ++ later) = c.queued before ++ (c.after before).queued later := by
  induction before generalizing c with
  | nil => rfl
  | cons a r ih => simp [queued, ih, after]

theorem queued_concat (c : Client) (events : List Event) (e : Event) :
    c.queued (events ++ [e]) = c.queued events ++ (c.after events).queues e := by
  simp [queued_append, queued]

theorem opened_concat (c : Client) (events : List Event) (e : Event) :
    c.opened (events ++ [e]) = c.opened events ++ (c.after events).opens e := by
  induction events generalizing c with
  | nil => simp [opened, after]
  | cons a r ih => simp [opened, ih, after]

theorem once_concat {P : Client → Event → Prop} (c : Client) (events : List Event) (e : Event) :
    Once P c (events ++ [e]) ↔ Once P c events ∨ P (c.after events) e := by
  induction events generalizing c with
  | nil => simp [Once, after]
  | cons a r ih => simp [Once, ih, after, or_assoc]

theorem once_iff {P : Client → Event → Prop} {events : List Event} : Once P c events ↔
    ∃ before e later, before ++ e :: later = events ∧ P (c.after before) e := by
  induction events generalizing c with
  | nil => simp [Once]
  | cons a r ih =>
    constructor
    · rintro (ha | hr)
      · exact ⟨[], a, r, rfl, ha⟩
      · obtain ⟨before, e, later, rfl, he⟩ := ih.mp hr
        exact ⟨a :: before, e, later, rfl, he⟩
    · rintro ⟨_ | ⟨b, before⟩, e, later, hs, he⟩
      · obtain ⟨rfl, rfl⟩ := List.cons.inj hs
        exact .inl he
      · obtain ⟨rfl, rfl⟩ := List.cons.inj hs
        exact .inr (ih.mpr ⟨before, e, later, rfl, he⟩)

theorem on_append (token : UInt64) (xs ys : List Frame) :
    on token (xs ++ ys) = on token xs ++ on token ys := List.filter_append _ _

theorem regular_before {db : Option String} {before later : List Event}
    (fresh : (after { db } (before ++ later)).issued < UInt64.size) :
    Regular (after { db } before) :=
  (regular_start db).after (Nat.lt_of_le_of_lt (issued_le_append _ before later) fresh)

@[elab_as_elim]
theorem induct_fresh {db : Option String}
    {motive : (events : List Event) → (after { db } events).issued < UInt64.size → Prop}
    (nil : ∀ fresh, motive [] fresh)
    (concat : ∀ events e before fresh, Regular (after { db } events) → motive events before →
      motive (events ++ [e]) fresh) (events : List Event)
    (fresh : (after { db } events).issued < UInt64.size) : motive events fresh := by
  induction events using List.reverseRecOn with
  | nil => exact nil fresh
  | append_singleton events e ih =>
    have hle := Nat.lt_of_le_of_lt (issued_le_append _ events [e]) fresh
    exact concat events e hle fresh ((regular_start db).after hle) (ih hle)

theorem queues_admitted (ht : c.task? t.id = some t) (ha : c.Admits t) :
    c.queues (.enqueue t.id) = t.work.frame?.toList := by
  have hq : (c.step (.enqueue t.id)).queue = c.queue ++ [(t.work, t.id)] := by
    rw [step, enqueue_queued ht ha.phase ha.shut ha.room]
    rfl
  rw [queues, hq, List.drop_left]
  cases t.work <;> rfl

theorem queues_eq_nil (hf : ¬ c.Fills e) : c.queues e = [] := by
  obtain ⟨s, hs, hq⟩ : ∃ s, Stands c e s ∧ (c.step e).queue = s.queue := ⟨_, stands_step c e, rfl⟩
  have hlen : s.queue.length ≤ c.queue.length := by
    cases hs with
    | queued ht ha => exact absurd ⟨_, rfl, ht, ha⟩ hf
    | written hq' => simp [hq']
    | shut => simp
    | failed hq' => simp [hq']
    | quiet | idle | spared => exact Nat.le_refl _
  rw [queues, hq, List.drop_eq_nil_of_le hlen]
  rfl

theorem Exclusive.eq (h : Exclusive c) {i : Holder} (hi : i ∈ c.holders) (hj : j ∈ c.holders)
    (hit : i.token? = some token) (hjt : j.token? = some token) : i = j := by
  obtain ⟨rest, hr⟩ := Multiset.exists_cons_of_mem hi
  have hn := h.tokens
  rw [hr, Multiset.filterMap_cons_some _ _ _ hit] at hn
  rw [hr] at hj
  rcases Multiset.mem_cons.mp hj with rfl | hj
  · rfl
  · exact absurd ((Multiset.mem_filterMap _ _).mpr ⟨j, hj, hjt⟩) (Multiset.nodup_cons.mp hn).1

theorem queues_on (c : Client) (e : Event) (token : UInt64) :
    on token (c.queues e) = [] ∨ ∃ t f, .task t ∈ c.holders ∧ t.work = .frame f ∧
      f.token = token ∧ e = .enqueue t.id ∧ c.Admits t ∧ c.queues e = [f] := by
  by_cases hf : c.Fills e
  · obtain ⟨t, rfl, ht, ha⟩ := hf
    have hm := (mem_of_task? ht).1
    have hq := queues_admitted ht ha
    cases hw : t.work with
    | shutdown => simp [hq, hw, Work.frame?, on]
    | frame f =>
      rw [hw] at hq
      by_cases hft : f.token = token
      · exact .inr ⟨t, f, task_mem_holders.mpr hm, hw, hft, rfl, ha, hq⟩
      · left
        rw [hq]
        simp [Work.frame?, on, hft]
  · simp [queues_eq_nil hf, on]

end ReqlDriver.Client
