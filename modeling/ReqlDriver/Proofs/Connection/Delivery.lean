import ReqlDriver.Proofs.Connection.Batches
import ReqlDriver.Proofs.Connection.Exchange
import ReqlDriver.Proofs.Connection.Reachable

namespace ReqlDriver.Client

open ReqlDriver.Cursor ReqlDriver.Frame

def asked (c : Client) (token : UInt64) (n : Nat) : Client :=
  { c with written := c.written ++ List.replicate n (Frame.control token .fetch) }

variable {c : Client} {k : Cursor} {id : Nat} {frames : List Frame} {batches : List (List Json)}
  {failure : Option Error}

theorem Ready.sent {token : UInt64} (h : Ready c id token) (f : Frame) :
    Ready (c.sent f) id token := ⟨h.free, h.unused, h.opened, h.shut, h.queue⟩

structure Serves (c : Client) (k : Cursor) : Prop where
  held : c.cursor? k.token = some k
  begun : ∀ t ∈ c.tasks, t.id < c.begun
  unused : k.token ∉ c.waiters.pending.map (·.1)
  opened : c.closed = false
  shut : c.shut = false
  queue : c.queue = []

def taken (c : Client) (token : UInt64) : Client := { c with begun := c.begun + 1 }.take token

theorem Serves.ready (h : Serves c k) : Ready (c.taken k.token) c.begun k.token :=
  ⟨fun t ht => Nat.ne_of_lt (h.begun t ht), h.unused, h.opened, h.shut, h.queue⟩

def flushed (c : Client) : Client := c.after (List.replicate c.queue.length .write)

theorem flushed_eq (h : Orderly c) (opened : c.closed = false) :
    ∃ tasks written, c.flushed = { c with queue := [], tasks := tasks, written := written } := by
  unfold flushed
  generalize hn : c.queue.length = n
  induction n generalizing c with
  | zero =>
    have hq : c.queue = [] := List.eq_nil_of_length_eq_zero hn
    exact ⟨c.tasks, c.written, by rw [← hq]; rfl⟩
  | succ n ih =>
    cases hq : c.queue with
    | nil => simp [hq] at hn
    | cons w rest =>
      have hw := (h.sending opened).queue w (hq ▸ List.mem_cons_self)
      obtain ⟨work, id⟩ := w
      cases work with
      | shutdown => exact absurd rfl hw
      | frame f =>
        have hs := write_frame hq
        have hl : c.write.queue.length = n := by
          rw [hq] at hn
          rw [hs]
          exact Nat.succ.inj hn
        have ho : c.write.closed = false := by
          rw [hs]
          exact opened
        obtain ⟨tasks, written, he⟩ := ih h.write ho hl
        refine ⟨tasks, written, he.trans ?_⟩
        rw [hs]
        rfl

def started (c : Client) (q : Term) (o : Options) : Client :=
  { c with begun := c.begun + 1 }.issue.2.sent (Frame.start c.issue.1 q (o.entries c.db))

end ReqlDriver.Client
