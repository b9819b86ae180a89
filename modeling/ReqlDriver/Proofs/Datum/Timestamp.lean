import Mathlib.Tactic.Ring
import ReqlDriver.Proofs.Datum.Drift
import ReqlDriver.Proofs.Datum.RoundTrip
import ReqlDriver.Proofs.Time.Offset

/-!
Which moments come back from the wire: those of whole milliseconds with an offset of whole minutes,
but for the milliseconds that drift.

The numbers of a timestamp are followed as counts of units. A fraction of a second is computed
first, the seconds are added to it, and the product with a thousand is rounded to a whole number;
each of these is one rounding of an exact count, and the sign stays that of the moment throughout.
-/

namespace ReqlDriver

namespace Moment

structure Whole (m : Moment) : Prop where
  range : inRange m.seconds = true
  nanos : 1000000 ∣ m.nanos
  second : m.nanos < 1000000000
  offset : offsetInRange m.offset = true
  minutes : 60 ∣ m.offset

theorem inRange_iff {seconds : Int} :
    inRange seconds = true ↔ -8334601228800 ≤ seconds ∧ seconds < 8210266876800 := by
  have hf : firstSecond = -8334601228800 := by decide
  have he : endSecond = 8210266876800 := by decide
  rw [inRange, Bool.and_eq_true_iff, decide_eq_true_iff, decide_eq_true_iff, hf, he]

theorem Whole.ofMillis? {m : Moment} (h : m.Whole) :
    Moment.ofMillis? m.millis m.offset = some m := by
  obtain ⟨k, hk⟩ := h.nanos
  have hs := h.second
  have hd : m.millis / 1000 = m.seconds := by
    unfold Moment.millis
    omega
  have hn : (m.millis % 1000).toNat * 1000000 = m.nanos := by
    unfold Moment.millis
    omega
  rw [Moment.ofMillis?, hd, if_pos h.range, hn]

theorem exists_ofMillis? {n offset : Int} (hr : inRange (n / 1000) = true)
    (ho : offsetInRange offset = true) (hm : 60 ∣ offset) :
    ∃ m, Moment.ofMillis? n offset = some m ∧ m.Whole ∧ m.millis = n ∧ m.offset = offset := by
  refine ⟨⟨n / 1000, (n % 1000).toNat * 1000000, offset⟩, ?_, ⟨hr, ?_, ?_, ho, hm⟩, ?_, rfl⟩
  · rw [Moment.ofMillis?, if_pos hr]
  · exact Nat.dvd_mul_left 1000000 _
  · dsimp only
    omega
  · simp only [Moment.millis]
    omega

end Moment

namespace Timestamp

open Binary64

theorem thousand_eq :
    thousand = finite false (1000 * one) (fits_mul_one (show 1000 < twoTo 53 by decide)) :=
  ofNat_eq (by decide)

theorem div_thousand {millis : Nat} (h : millis < 1000) :
    ∃ q fits, (ofNat millis).div thousand = finite false q fits ∧ Near millis q := by
  have hstep : step = 512 * twoTo 1054 := by
    rw [step, show 1063 = 9 + 1054 from rfl, twoTo_add, show twoTo 9 = 512 by decide]
  have hm : millis * one < 1000 * one := Nat.mul_lt_mul_of_pos_right h Binary64.one_pos
  have hk : millis * one < 1000 * twoTo (1054 + 53) :=
    Nat.lt_of_lt_of_le hm (Nat.mul_le_mul_left 1000 (twoTo_le (by decide)))
  have hu : millis * one * one < 1000 * one * twoTo 2097 :=
    Nat.mul_lt_mul_of_lt_of_le hm (twoTo_le (by decide)) (twoTo_pos 2097)
  obtain ⟨fits, he⟩ := ofUnits_eq false (Nat.mul_pos (by decide) Binary64.one_pos) hu
  have hb := snap_bounds (by decide) hk
  have hz : double.snap (millis * one * one) (1000 * one) = double.snap (millis * one) 1000 :=
    snap_mul (millis * one) 1000 Binary64.one_pos
  refine ⟨_, fits, ?_, ?_, ?_, ?_⟩
  · rw [ofNat_eq (Nat.lt_trans h (by decide)), thousand_eq]
    have hv : 1000 * one ≠ 0 := Nat.ne_of_gt (Nat.mul_pos (by decide) Binary64.one_pos)
    simp only [Binary64.div, hv, ne_eq, not_false_eq_true, if_true, bne_self_eq_false, he]
  · rw [hz]
    omega
  · rw [hz]
    omega
  · intro hd
    obtain rfl := Nat.eq_zero_of_dvd_of_lt hd h
    rw [hz, snap_eq]
    simp [nearest]

theorem signed_natAbs (n : Int) (units : Nat) :
    signed (decide (n < 0)) (n.natAbs * units) = n * units := by
  by_cases h : n < 0
  · rw [signed, if_pos (decide_eq_true h), Int.natCast_mul, ← Int.neg_mul]
    congr 1
    omega
  · rw [signed, if_neg (by rwa [decide_eq_true_eq]), Int.natCast_mul]
    congr 1
    omega

theorem add_fraction {seconds : Int} {q : Nat} (fits : Fits q) (hs : seconds.natAbs < twoTo 53)
    (hsum : (seconds * one + q).natAbs < twoTo 2097) :
    ∃ fits', (ofInt seconds).add (finite false q fits) =
      finite (decide (seconds * one + q < 0)) (double.snap (seconds * one + q).natAbs 1) fits' := by
  obtain ⟨fits', he⟩ := ofUnits_eq (decide (seconds * one + q < 0)) Nat.one_pos
    (show (seconds * one + q).natAbs < 1 * twoTo 2097 by rwa [Nat.one_mul])
  refine ⟨fits', ?_⟩
  have hq : signed false q = q := rfl
  rw [ofInt_eq hs]
  simp only [add, signed_natAbs, hq]
  split
  · rename_i hz
    simp only [hz, zero, Bool.and_false]
    exact finite_eq rfl (snap_double fits_zero).symm
  · exact he

theorem millis_finite {t : Timestamp} {negative : Bool} {x : Nat} {fits : Fits x}
    (ht : t.seconds = finite negative x fits) (hx : x < twoTo 2000) :
    t.millis = Width.int64.clamp (signed negative (whole (double.snap (1000 * x) 1))) := by
  have hb : 1000 * x < twoTo 2097 := by
    have h1000 : 1000 * x < twoTo 10 * twoTo 2000 :=
      Nat.mul_lt_mul_of_lt_of_le (by decide) (Nat.le_of_lt hx) (twoTo_pos 2000)
    rw [← twoTo_add] at h1000
    exact Nat.lt_of_lt_of_le h1000 (twoTo_le (by decide))
  have hu : 1000 * x * one < one * twoTo 2097 := by
    rw [Nat.mul_comm one]
    exact Nat.mul_lt_mul_of_pos_right hb Binary64.one_pos
  obtain ⟨fits', he⟩ := ofUnits_eq (negative != false) Binary64.one_pos hu
  have hs : double.snap (1000 * x * one) one = double.snap (1000 * x) 1 := by
    have := snap_mul (1000 * x) 1 Binary64.one_pos
    rwa [Nat.one_mul] at this
  have hm : (finite negative x fits).mul thousand = finite (negative != false) _ fits' := by
    rw [thousand_eq, mul, Nat.mul_left_comm, ← Nat.mul_assoc]
    exact he
  rw [millis, ht, hm, saturate, Binary64.round, Option.getD_some, hs, Bool.bne_false, whole]

theorem near_millis {m : Moment} (h : m.Whole) {q : Nat} (near : Near (m.nanos / 1000000) q) :
    Near m.millis.natAbs (m.seconds * one + q).natAbs := by
  have hn : m.millis.natAbs * one =
      (1000 * (m.seconds * one) + (m.nanos / 1000000 * one : Nat)).natAbs := by
    rw [← Int.natAbs_natCast one, ← Int.natAbs_mul, Moment.millis, Int.natAbs_natCast]
    push_cast
    ring_nf
  have hs := h.second
  obtain ⟨above, below, whole⟩ := near
  constructor
  · omega
  · omega
  · intro hd
    have := whole (by unfold Moment.millis at hd; omega)
    omega

theorem isNegative_iff {m : Moment} (h : m.Whole) {q : Nat} (near : Near (m.nanos / 1000000) q) :
    m.seconds * one + q < 0 ↔ m.millis < 0 := by
  have hs := h.second
  have hone := one_eq
  have hp := step_pos
  have above := near.above
  have hm : m.nanos / 1000000 * one ≤ 999 * one := Nat.mul_le_mul_right one (by omega)
  unfold Moment.millis
  by_cases hn : m.seconds < 0
  · have := Int.mul_le_mul_of_nonneg_right (show m.seconds ≤ -1 by omega) (Int.natCast_nonneg one)
    omega
  · have := Int.mul_nonneg (Int.not_lt.mp hn) (Int.natCast_nonneg one)
    omega

theorem seconds_ofMoment {m : Moment} (h : m.Whole) :
    ∃ x fits, (ofMoment m).seconds = finite (decide (m.millis < 0)) x fits ∧ x < twoTo 2000 ∧
      whole (double.snap (1000 * x) 1) = settled m.millis.natAbs := by
  have hr := Moment.inRange_iff.mp h.range
  have hs := h.second
  have hms : m.nanos / 1000000 < 1000 := by omega
  obtain ⟨q, fits, hq, hf⟩ := div_thousand hms
  have hm : m.millis.natAbs < 1000 * twoTo 43 := by
    rw [twoTo_43, Moment.millis]
    omega
  have near := near_millis h hf
  have hl : (m.seconds * one + q).natAbs < twoTo 1117 := by
    rw [show 1117 = 43 + 1074 from rfl, twoTo_one]
    exact near.lt hm
  have hx : double.snap (m.seconds * one + q).natAbs 1 ≤ twoTo 1117 :=
    snap_le (by rwa [Nat.one_mul])
  obtain ⟨fits', he⟩ := add_fraction fits
    (show m.seconds.natAbs < twoTo 53 by rw [twoTo_53]; omega)
    (Nat.lt_of_lt_of_le hl (twoTo_le (by decide)))
  refine ⟨_, fits', ?_, Nat.lt_of_le_of_lt hx (twoTo_lt (by decide)), counted_eq near hm⟩
  simp only [ofMoment, hq, he, isNegative_iff h hf]

theorem settled_le (millis : Nat) : settled millis ≤ millis + 1 := by
  unfold settled
  split <;> omega

theorem clamp_signed (negative : Bool) {n : Nat} (h : n < twoTo 53) :
    Width.int64.clamp (signed negative n) = signed negative n := by
  have h53 := twoTo_53
  have hn := natAbs_signed negative n
  simp only [Width.clamp, Width.int64]
  omega

theorem millis_ofMoment {m : Moment} (h : m.Whole) :
    (ofMoment m).millis = signed (decide (m.millis < 0)) (settled m.millis.natAbs) := by
  obtain ⟨x, fits, hx, hlt, hc⟩ := seconds_ofMoment h
  have hr := Moment.inRange_iff.mp h.range
  have hs := h.second
  have hb : settled m.millis.natAbs < twoTo 53 := by
    have := settled_le m.millis.natAbs
    rw [twoTo_53]
    unfold Moment.millis at this ⊢
    omega
  rw [millis_finite hx hlt, hc, clamp_signed _ hb]

end Timestamp

namespace Datum

open Binary64 Timestamp

theorem asTime?_ofJson_ofMoment {m : Moment} (h : m.Whole) :
    (ofJson (ofMoment m).toJson).asTime? =
      Moment.ofMillis? (signed (decide (m.millis < 0)) (settled m.millis.natAbs)) m.offset := by
  obtain ⟨x, fits, hx, -⟩ := seconds_ofMoment h
  have hf : (Timestamp.ofMoment m).seconds.isFinite = true := by
    rw [hx]
    rfl
  have hz : Offset.read? (Timestamp.ofMoment m).zone = some m.offset :=
    Offset.read?_write h.offset h.minutes
  rw [ofMoment, ofJson_toJson_time hf, asTime?, asTimestamp?, Option.bind_some, toMoment?, hz,
    Option.bind_some, millis_ofMoment h]

theorem signed_settled {n : Int} (h : ¬ Drifts n.natAbs) :
    signed (decide (n < 0)) (settled n.natAbs) = n := by
  rw [settled, if_neg h]
  have hn := signed_natAbs n 1
  rwa [Nat.mul_one, Int.natCast_one, Int.mul_one] at hn

theorem signed_settled_of_drifts {n : Int} (h : Drifts n.natAbs) :
    signed (decide (n < 0)) (settled n.natAbs) = n + n.sign := by
  rw [settled, if_pos h]
  rcases Int.lt_trichotomy n 0 with hn | rfl | hn
  · rw [Int.sign_eq_neg_one_of_neg hn, signed, if_pos (decide_eq_true hn)]
    omega
  · exact absurd h (by decide)
  · rw [Int.sign_eq_one_of_pos hn, signed, if_neg (by rw [decide_eq_true_eq]; omega)]
    omega

/-- A moment comes back from the wire, in its own offset, unless its number of milliseconds drifts;
then the moment that comes back is one millisecond farther from 1970. -/
theorem asTime?_ofJson_ofMoment_iff {m : Moment} (h : m.Whole) :
    ((ofJson (ofMoment m).toJson).asTime? = some m ↔ ¬ Drifts m.millis.natAbs) ∧
      (Drifts m.millis.natAbs → ∃ other, (ofJson (ofMoment m).toJson).asTime? = some other ∧
        other.Whole ∧ other.millis = m.millis + m.millis.sign ∧ other.offset = m.offset) := by
  rw [asTime?_ofJson_ofMoment h]
  have hdrift (hd : Drifts m.millis.natAbs) : ∃ other,
      Moment.ofMillis? (signed (decide (m.millis < 0)) (settled m.millis.natAbs)) m.offset =
        some other ∧
      other.Whole ∧ other.millis = m.millis + m.millis.sign ∧ other.offset = m.offset := by
    rw [signed_settled_of_drifts hd]
    apply Moment.exists_ofMillis? _ h.offset h.minutes
    have h52 : m.millis.natAbs < 4503599627370496 := hd.2.1
    have hs := Int.sign_trichotomy m.millis
    rw [Moment.inRange_iff]
    omega
  refine ⟨⟨?_, ?_⟩, hdrift⟩
  · intro hb hd
    obtain ⟨other, ho, -, hm, -⟩ := hdrift hd
    rw [hb, Option.some.injEq] at ho
    rw [← ho] at hm
    have hz : m.millis = 0 := Int.sign_eq_zero_iff_zero.mp (by omega)
    rw [hz] at hd
    exact absurd hd (by decide)
  · intro hd
    rw [signed_settled hd]
    exact h.ofMillis?

theorem asTime?_ofJson_ofMoment_west :
    let m : Moment := ⟨-1, 999000000, -1800⟩
    m.Whole ∧ (ofJson (ofMoment m).toJson).asTime? = some m := by
  intro m
  have hm : m.Whole := ⟨by decide, by decide, by decide, by decide, by decide⟩
  exact ⟨hm, (asTime?_ofJson_ofMoment_iff hm).1.mpr (by decide)⟩

theorem asTime?_ofJson_ofMoment_later :
    let m : Moment := ⟨4398046511104, 30000000, 0⟩
    m.Whole ∧ (ofJson (ofMoment m).toJson).asTime? = some ⟨4398046511104, 31000000, 0⟩ := by
  intro m
  have hm : m.Whole := ⟨by decide, by decide, by decide, by decide, by decide⟩
  refine ⟨hm, ?_⟩
  rw [asTime?_ofJson_ofMoment hm]
  decide

end Datum

end ReqlDriver
