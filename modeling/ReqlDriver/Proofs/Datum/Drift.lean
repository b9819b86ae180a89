import Mathlib.Tactic.Ring
import ReqlDriver.Datum.Timestamp
import ReqlDriver.Proofs.Number.Rounding

/-!
What the seconds of a timestamp make of its milliseconds.

Milliseconds are rounded three times: when their fraction of a second is computed, when it is added
to the seconds, and when the sum is multiplied by a thousand. The last two errors can add up to
half a millisecond only some 139 to 143 thousand years from 1970, where a number of milliseconds may
come back greater by one.
-/

namespace ReqlDriver.Timestamp

open Binary64

def step : Nat := twoTo 1063

theorem step_pos : 0 < step := twoTo_pos 1063

theorem twoTo_step (n : Nat) : twoTo (n + 1063) = twoTo n * step := by
  rw [step, twoTo_add]

theorem twoTo_one (n : Nat) : twoTo (n + 1074) = twoTo n * one := by
  rw [one, twoTo_add]

theorem one_eq : one = 2048 * step := by
  have h11 : twoTo 11 = 2048 := by decide
  rw [one, ← h11, ← twoTo_step]

theorem snap_bounds_step {units n : Nat} (h : units < twoTo (n + 53) * step) :
    2 * units ≤ 2 * double.snap units 1 + twoTo n * step ∧
      2 * double.snap units 1 ≤ 2 * units + twoTo n * step := by
  have hu : units < 1 * twoTo (n + 1063 + 53) := by
    rwa [Nat.one_mul, Nat.add_right_comm, twoTo_step]
  have hb := snap_bounds Nat.one_pos hu
  rwa [Nat.mul_one, Nat.one_mul, twoTo_step] at hb

theorem twoTo_42 : twoTo 42 = 4398046511104 := by decide

theorem twoTo_43 : twoTo 43 = 8796093022208 := by decide

theorem twoTo_52 : twoTo 52 = 4503599627370496 := by decide

theorem twoTo_53 : twoTo 53 = 9007199254740992 := by decide

/-- The numbers of milliseconds that come back greater by one. -/
def Drifts (millis : Nat) : Prop :=
  1000 * twoTo 42 ≤ millis ∧ millis < twoTo 52 ∧ 63 ≤ 3 * millis % 125 ∧ 3 * millis % 125 ≤ 92

instance : DecidablePred Drifts := fun _ => inferInstanceAs (Decidable (_ ∧ _))

def settled (millis : Nat) : Nat := if Drifts millis then millis + 1 else millis

/-- A count of units that is a number of milliseconds, up to the error of one rounded fraction. -/
structure Near (millis units : Nat) : Prop where
  above : 1000 * units ≤ millis * one + step
  below : millis * one ≤ 1000 * units + step
  whole : 1000 ∣ millis → 1000 * units = millis * one

def whole (units : Nat) : Nat := (2 * units + one) / (2 * one)

def counted (units : Nat) : Nat := whole (double.snap (1000 * double.snap units 1) 1)

theorem counted_small {millis units : Nat} (near : Near millis units)
    (hm : millis < 1000 * twoTo 42) : counted units = millis := by
  obtain ⟨above, below, -⟩ := near
  have hs := step_pos
  have hn : (millis + 1) * step ≤ 1000 * twoTo 42 * step := Nat.mul_le_mul_right step hm
  have hone : millis * one = 2048 * (millis * step) := by rw [one_eq, Nat.mul_left_comm]
  have h0 : twoTo 0 = 1 := by decide
  have h10 : twoTo 10 = 1024 := by decide
  have h63 : twoTo (10 + 53) = 9223372036854775808 := by decide
  rw [hone] at above below
  rw [Nat.succ_mul, twoTo_42] at hn
  have hu : units < twoTo (0 + 53) * step := by
    rw [Nat.zero_add, twoTo_53]
    omega
  have hx := snap_bounds_step hu
  rw [h0] at hx
  unfold counted whole
  generalize double.snap units 1 = x at hx ⊢
  have hm : 1000 * x < twoTo (10 + 53) * step := by
    rw [h63]
    omega
  have hp := snap_bounds_step hm
  rw [h10] at hp
  generalize double.snap (1000 * x) 1 = p at hp ⊢
  apply Nat.div_eq_of_lt_le
  · rw [Nat.mul_left_comm, hone, one_eq]
    omega
  · rw [Nat.mul_left_comm, Nat.add_mul, Nat.one_mul, hone, one_eq]
    omega

theorem sum_large {millis units : Nat} (near : Near millis units)
    (low : twoTo 42 * one ≤ units) (high : units < twoTo 43 * one) :
    ∃ j, double.snap units 1 = j * (2 * step) ∧ 125 * j ≤ 128 * millis + 62 ∧
      128 * millis ≤ 125 * j + 62 := by
  obtain ⟨above, below, -⟩ := near
  have hs := step_pos
  have hone : millis * one = 2048 * (millis * step) := by rw [one_eq, Nat.mul_left_comm]
  have hstep : twoTo 1064 = 2 * step := by
    rw [show 1064 = 1 + 1063 from rfl, twoTo_step, show twoTo 1 = 2 by decide]
  have hl : 1 * twoTo (1064 + 52) ≤ units := by
    rw [Nat.one_mul, show 1064 + 52 = 42 + 1074 from rfl, twoTo_one]
    exact low
  have hh : units < 1 * twoTo (1064 + 53) := by
    rw [Nat.one_mul, show 1064 + 53 = 43 + 1074 from rfl, twoTo_one]
    exact high
  have hx := snap_binade hl hh
  rw [Nat.one_mul, hstep] at hx
  rw [hone] at above below
  have hb := nearest_bounds units (show 0 < 2 * step by omega)
  generalize nearest units (2 * step) = j at hx hb
  rw [Nat.mul_left_comm j] at hb
  have hj : 125 * j * step < (128 * millis + 63) * step := by
    rw [Nat.mul_assoc, Nat.add_mul, Nat.mul_assoc]
    omega
  have hm : 128 * millis * step < (125 * j + 63) * step := by
    rw [Nat.mul_assoc, Nat.add_mul, Nat.mul_assoc]
    omega
  exact ⟨j, hx, Nat.le_of_lt_succ (Nat.lt_of_mul_lt_mul_right hj),
    Nat.le_of_lt_succ (Nat.lt_of_mul_lt_mul_right hm)⟩

theorem whole_of_halves (n : Nat) : whole (n * (1024 * step)) = (n + 1) / 2 := by
  have hn : 2 * (n * (1024 * step)) + one = (n + 1) * one := by
    rw [one_eq]
    ring
  rw [whole, hn, Nat.mul_div_mul_right _ _ Binary64.one_pos]

theorem whole_of_wholes (n : Nat) : whole (n * one) = n := by
  have hn : 2 * (n * one) + one = (2 * n + 1) * one := by ring
  rw [whole, hn, Nat.mul_div_mul_right _ _ Binary64.one_pos]
  omega

theorem nearest_half {millis j : Nat} (low : 1000 * twoTo 42 ≤ millis)
    (high : 125 * j < 128 * twoTo 52) (above : 125 * j ≤ 128 * millis + 62)
    (below : 128 * millis ≤ 125 * j + 62) : (nearest (125 * j) 64 + 1) / 2 = settled millis := by
  have h52 := twoTo_52
  -- The rest of `3 * millis` by 125 is the error, up to its sign.
  have hd : Drifts millis ↔ 128 * millis + 33 ≤ 125 * j := by
    obtain ⟨e, he⟩ : ∃ e : Int, j = millis + (3 * millis / 125 : Nat) + e :=
      ⟨j - millis - (3 * millis / 125 : Nat), by omega⟩
    unfold Drifts
    omega
  simp only [nearest, settled, hd]
  split <;> split <;> omega

theorem counted_large {millis j : Nat} (low : 1000 * twoTo 42 ≤ millis)
    (high : millis < 1000 * twoTo 43) (above : 125 * j ≤ 128 * millis + 62)
    (below : 128 * millis ≤ 125 * j + 62) :
    whole (double.snap (1000 * (j * (2 * step))) 1) = settled millis := by
  have h42 := twoTo_42
  have h43 := twoTo_43
  have h52 := twoTo_52
  have h58 : twoTo (6 + 52) = 288230376151711744 := by decide
  have h59 : twoTo 59 = 576460752303423488 := by decide
  have h60 : twoTo (7 + 53) = 1152921504606846976 := by decide
  have hj : 1000 * (j * (2 * step)) = 125 * j * twoTo 1067 := by
    rw [show 1067 = 4 + 1063 from rfl, twoTo_step, show twoTo 4 = 16 by decide]
    ring
  rw [hj]
  by_cases h : 125 * j < twoTo 59
  · have hhalf : twoTo (6 + 1067) = 1024 * step := by
      rw [show 6 + 1067 = 10 + 1063 from rfl, twoTo_step, show twoTo 10 = 1024 by decide]
    rw [snap_mul_twoTo (by omega) h, hhalf, whole_of_halves, show twoTo 6 = 64 by decide]
    exact nearest_half low (by omega) above below
  · have hone : twoTo (7 + 1067) = one := rfl
    have hd : ¬ Drifts millis := by
      unfold Drifts
      omega
    rw [snap_mul_twoTo (n := 7) (Nat.le_of_not_lt h) (by omega), hone, whole_of_wholes,
      show twoTo 7 = 128 by decide, nearest_eq (n := millis) (by omega) (by omega), settled,
      if_neg hd]

theorem Near.lt {millis units : Nat} (near : Near millis units) (hm : millis < 1000 * twoTo 43) :
    units < twoTo 43 * one := by
  have hs := step_pos
  have hone := one_eq
  have hn := Nat.mul_le_mul_right one hm
  rw [Nat.succ_mul, Nat.mul_assoc] at hn
  have := near.above
  omega

theorem Near.le {millis units : Nat} (near : Near millis units) (hm : 1000 * twoTo 42 ≤ millis) :
    twoTo 42 * one ≤ units := by
  have hs := step_pos
  have hone := one_eq
  rcases Nat.eq_or_lt_of_le hm with rfl | hm
  · have := near.whole (Nat.dvd_mul_right 1000 _)
    rw [Nat.mul_assoc] at this
    omega
  · have hn := Nat.mul_le_mul_right one hm
    rw [Nat.succ_mul, Nat.mul_assoc] at hn
    have := near.below
    omega

theorem counted_eq {millis units : Nat} (near : Near millis units)
    (hm : millis < 1000 * twoTo 43) : counted units = settled millis := by
  rcases Nat.lt_or_ge millis (1000 * twoTo 42) with h | h
  · have hd : ¬ Drifts millis := fun hd => Nat.not_le_of_lt h hd.1
    rw [settled, if_neg hd]
    exact counted_small near h
  · obtain ⟨j, hj, above, below⟩ := sum_large near (near.le h) (near.lt hm)
    rw [counted, hj]
    exact counted_large h hm above below

end ReqlDriver.Timestamp
