import ReqlDriver.Number.Binary64

namespace ReqlDriver

theorem twoTo_dvd {m n : Nat} (h : m ≤ n) : twoTo m ∣ twoTo n := Nat.pow_dvd_pow 2 h

theorem log2_lt_iff {m n : Nat} (hm : m ≠ 0) : m.log2 < n ↔ m < twoTo n := Nat.log2_lt hm

theorem log2_mul_twoTo_le {m k n : Nat} (h : m < twoTo k) : (m * twoTo n).log2 ≤ k + n - 1 := by
  rcases Nat.eq_zero_or_pos m with rfl | hm
  · simp
  · have hz : m * twoTo n ≠ 0 := Nat.ne_of_gt (Nat.mul_pos hm (twoTo_pos n))
    have hb : m * twoTo n < twoTo (k + n) := by
      rw [twoTo_add]
      exact Nat.mul_lt_mul_of_pos_right h (twoTo_pos n)
    have := (log2_lt_iff hz).mpr hb
    omega

namespace Binary64

theorem one_pos : 0 < one := twoTo_pos 1074

theorem nearest_of_dvd {num den : Nat} (hd : 0 < den) (h : den ∣ num) :
    nearest num den = num / den := by
  have hr : num % den = 0 := Nat.mod_eq_zero_of_dvd h
  simp [nearest, hr, hd]

theorem snap_double {u : Nat} (h : Fits u) : double.snap u 1 = u := by
  simp only [Precision.snap, double, Nat.div_one, Nat.zero_max, Nat.one_mul]
  have he : u.log2 + 1 - 53 = u.log2 - 52 := by omega
  rw [he, nearest_of_dvd (twoTo_pos _) h.2]
  exact Nat.div_mul_cancel h.2

theorem ofUnits_double (s : Bool) {u : Nat} (h : Fits u) :
    ofUnits double s u 1 = finite s u h := by
  have hu : u < twoTo double.limit := h.1
  simp only [ofUnits, snap_double h]
  exact dif_pos ⟨hu, h⟩

theorem fits_mul_one {n : Nat} (h : n < twoTo 53) : Fits (n * one) := by
  have hl : (n * one).log2 ≤ 53 + 1074 - 1 := log2_mul_twoTo_le h
  have hd : twoTo ((n * one).log2 - 52) ∣ one := twoTo_dvd (by omega)
  refine ⟨?_, Nat.dvd_mul_left_of_dvd hd n⟩
  rcases Nat.eq_zero_or_pos n with rfl | hn
  · rw [Nat.zero_mul]
    exact twoTo_pos 2098
  · have hz : n * one ≠ 0 := Nat.ne_of_gt (Nat.mul_pos hn one_pos)
    exact (log2_lt_iff hz).mp (by omega)

theorem ofInt_eq {n : Int} (h : n.natAbs < twoTo 53) :
    ofInt n = finite (decide (n < 0)) (n.natAbs * one) (fits_mul_one h) :=
  ofUnits_double _ (fits_mul_one h)

theorem ofNat_eq {n : Nat} (h : n < twoTo 53) :
    ofNat n = finite false (n * one) (fits_mul_one h) :=
  ofUnits_double false (fits_mul_one h)

end Binary64

end ReqlDriver
