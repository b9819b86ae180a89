import ReqlDriver.Number.Width
import ReqlDriver.Proofs.Number.Exact

/-!
A rounded ratio of counts of units has at most 53 significant bits, so rounding gives a number
whenever the ratio stays below the overflow: all integers of 64 bits are read as finite numbers.
What rounding changes is at most half of a step, and a step is known from the powers of two between
which the ratio lies.
-/

namespace ReqlDriver.Binary64

def exponent (num den : Nat) : Nat := (num / den).log2 + 1 - 53

theorem snap_eq (num den : Nat) :
    double.snap num den =
      nearest num (den * twoTo (exponent num den)) * twoTo (exponent num den) := by
  simp [Precision.snap, double, exponent]

theorem nearest_le {num den n : Nat} (h : num < n * den) : nearest num den ≤ n := by
  have hq : num / den < n := Nat.div_lt_of_lt_mul (by rwa [Nat.mul_comm])
  unfold nearest
  dsimp only
  split <;> omega

theorem nearest_bounds (num : Nat) {den : Nat} (hd : 0 < den) :
    2 * num ≤ 2 * (nearest num den * den) + den ∧
      2 * (nearest num den * den) ≤ 2 * num + den := by
  have hq : num / den * den + num % den = num := Nat.div_add_mod' num den
  have hr : num % den < den := Nat.mod_lt num hd
  unfold nearest
  dsimp only
  split
  · omega
  · rw [Nat.add_mul, Nat.one_mul]
    omega

theorem nearest_eq {num den n : Nat} (low : 2 * (n * den) < 2 * num + den)
    (high : 2 * num < 2 * (n * den) + den) : nearest num den = n := by
  have hb := nearest_bounds num (show 0 < den by omega)
  generalize nearest num den = m at hb ⊢
  rcases Nat.lt_trichotomy m n with h | h | h
  · have := Nat.mul_le_mul_right den h
    rw [Nat.succ_mul] at this
    omega
  · exact h
  · have := Nat.mul_le_mul_right den h
    rw [Nat.succ_mul] at this
    omega

theorem nearest_mul {num den c : Nat} (hc : 0 < c) :
    nearest (num * c) (den * c) = nearest num den := by
  have hlt : 2 * (num % den * c) < den * c ↔ 2 * (num % den) < den := by
    rw [← Nat.mul_assoc, Nat.mul_lt_mul_right hc]
  have heq : 2 * (num % den * c) = den * c ↔ 2 * (num % den) = den := by
    rw [← Nat.mul_assoc, Nat.mul_left_inj (Nat.ne_of_gt hc)]
  simp only [nearest, Nat.mul_mod_mul_right, Nat.mul_div_mul_right _ _ hc, hlt, heq]

theorem snap_mul (num den : Nat) {c : Nat} (hc : 0 < c) :
    double.snap (num * c) (den * c) = double.snap num den := by
  have he : exponent (num * c) (den * c) = exponent num den := by
    simp only [exponent, Nat.mul_div_mul_right _ _ hc]
  rw [snap_eq, snap_eq, he, Nat.mul_right_comm den, nearest_mul hc]

theorem twoTo_le {m n : Nat} (h : m ≤ n) : twoTo m ≤ twoTo n :=
  Nat.pow_le_pow_right (by decide) h

theorem twoTo_lt {m n : Nat} (h : m < n) : twoTo m < twoTo n :=
  Nat.pow_lt_pow_right (by decide) h

theorem exponent_le {num den k : Nat} (h : num < den * twoTo (k + 53)) :
    exponent num den ≤ k := by
  have hq : num / den < twoTo (k + 53) := Nat.div_lt_of_lt_mul h
  rcases Nat.eq_zero_or_pos (num / den) with hz | hp
  · simp [exponent, hz]
  · have := (log2_lt_iff (Nat.ne_of_gt hp)).mpr hq
    unfold exponent
    omega

theorem lt_mul_twoTo_exponent {num den : Nat} (hd : 0 < den) :
    num < twoTo 53 * (den * twoTo (exponent num den)) := by
  have hl : num / den < twoTo ((num / den).log2 + 1) := Nat.lt_log2_self
  have hq : num / den < twoTo (53 + exponent num den) :=
    Nat.lt_of_lt_of_le hl (twoTo_le (by unfold exponent; omega))
  rwa [Nat.mul_left_comm, ← twoTo_add, Nat.mul_comm, ← Nat.div_lt_iff_lt_mul hd]

theorem snap_le {num den k : Nat} (h : num < den * twoTo k) :
    double.snap num den ≤ twoTo k := by
  have he : exponent num den ≤ k :=
    exponent_le (Nat.lt_of_lt_of_le h (Nat.mul_le_mul_left den (twoTo_le (Nat.le_add_right k 53))))
  have hk : twoTo (k - exponent num den) * twoTo (exponent num den) = twoTo k := by
    rw [← twoTo_add, Nat.sub_add_cancel he]
  calc double.snap num den
      = nearest num (den * twoTo (exponent num den)) * twoTo (exponent num den) := snap_eq num den
    _ ≤ twoTo (k - exponent num den) * twoTo (exponent num den) :=
        Nat.mul_le_mul_right _ (nearest_le (by rwa [Nat.mul_left_comm, hk]))
    _ = twoTo k := hk

theorem snap_bounds {num den k : Nat} (hd : 0 < den) (h : num < den * twoTo (k + 53)) :
    2 * num ≤ 2 * (double.snap num den * den) + den * twoTo k ∧
      2 * (double.snap num den * den) ≤ 2 * num + den * twoTo k := by
  have hs : den * twoTo (exponent num den) ≤ den * twoTo k :=
    Nat.mul_le_mul_left den (twoTo_le (exponent_le h))
  have hb := nearest_bounds num (Nat.mul_pos hd (twoTo_pos (exponent num den)))
  have hm : double.snap num den * den =
      nearest num (den * twoTo (exponent num den)) * (den * twoTo (exponent num den)) := by
    rw [snap_eq, Nat.mul_assoc, Nat.mul_comm den]
  omega

theorem snap_binade {num den k : Nat} (low : den * twoTo (k + 52) ≤ num)
    (high : num < den * twoTo (k + 53)) :
    double.snap num den = nearest num (den * twoTo k) * twoTo k := by
  have hd : 0 < den := by
    rcases Nat.eq_zero_or_pos den with rfl | hd
    · simp at high
    · exact hd
  have hl : twoTo (k + 52) ≤ num / den := by
    rw [Nat.le_div_iff_mul_le hd, Nat.mul_comm]
    exact low
  have hz : num / den ≠ 0 := Nat.ne_of_gt (Nat.lt_of_lt_of_le (twoTo_pos (k + 52)) hl)
  have hk : k + 52 ≤ (num / den).log2 := (Nat.le_log2 hz).mpr hl
  have he : exponent num den = k := by
    have := exponent_le high
    unfold exponent at this ⊢
    omega
  rw [snap_eq, he]

theorem snap_mul_twoTo {m n k : Nat} (low : twoTo (n + 52) ≤ m) (high : m < twoTo (n + 53)) :
    double.snap (m * twoTo k) 1 = nearest m (twoTo n) * twoTo (n + k) := by
  have hl : 1 * twoTo (n + k + 52) ≤ m * twoTo k := by
    rw [Nat.one_mul, Nat.add_right_comm, twoTo_add]
    exact Nat.mul_le_mul_right (twoTo k) low
  have hh : m * twoTo k < 1 * twoTo (n + k + 53) := by
    rw [Nat.one_mul, Nat.add_right_comm, twoTo_add (n + 53)]
    exact Nat.mul_lt_mul_of_pos_right high (twoTo_pos k)
  rw [snap_binade hl hh, Nat.one_mul, twoTo_add n k, nearest_mul (twoTo_pos k)]

theorem log2_twoTo (n : Nat) : (twoTo n).log2 = n := Nat.log2_two_pow

theorem fits_snap {num den : Nat} (hd : 0 < den) (h : double.snap num den < overflow) :
    Fits (double.snap num den) := by
  refine ⟨h, ?_⟩
  have hm : nearest num (den * twoTo (exponent num den)) ≤ twoTo 53 :=
    nearest_le (lt_mul_twoTo_exponent hd)
  rw [snap_eq]
  rcases Nat.lt_or_eq_of_le hm with hm | hm
  · have hl := log2_mul_twoTo_le (n := exponent num den) hm
    exact Nat.dvd_mul_left_of_dvd (twoTo_dvd (by omega)) _
  · rw [hm, ← twoTo_add, log2_twoTo]
    exact twoTo_dvd (by omega)

theorem ofUnits_eq (s : Bool) {num den : Nat} (hd : 0 < den) (h : num < den * twoTo 2097) :
    ∃ fits, ofUnits double s num den = finite s (double.snap num den) fits := by
  have hs : double.snap num den < overflow :=
    Nat.lt_of_le_of_lt (snap_le h) (twoTo_lt (Nat.lt_succ_self 2097))
  have hl : double.snap num den < twoTo double.limit := hs
  exact ⟨fits_snap hd hs, by simp [ofUnits, hl, fits_snap hd hs]⟩

theorem isFinite_ofInt {n : Int} (least : Width.int64.least ≤ n)
    (greatest : n ≤ Width.uint64.greatest) : (ofInt n).isFinite = true := by
  have hn : n.natAbs < twoTo 64 := by
    have h64 : twoTo 64 = 18446744073709551616 := by decide
    simp only [Width.int64, Width.uint64] at least greatest
    omega
  have hb : n.natAbs * one < twoTo 64 * one := Nat.mul_lt_mul_of_pos_right hn one_pos
  rw [one, ← twoTo_add] at hb
  have hu : n.natAbs * one < 1 * twoTo 2097 := by
    rw [Nat.one_mul]
    exact Nat.lt_of_lt_of_le hb (twoTo_le (by decide))
  obtain ⟨_, he⟩ := ofUnits_eq (decide (n < 0)) Nat.one_pos hu
  rw [ofInt, he]
  rfl

end ReqlDriver.Binary64
