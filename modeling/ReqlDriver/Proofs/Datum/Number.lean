import ReqlDriver.Datum.Wire
import ReqlDriver.Proofs.Number.Exact

namespace ReqlDriver

namespace Binary64

theorem natAbs_signed (s : Bool) (n : Nat) : (signed s n).natAbs = n := by
  cases s <;> simp [signed]

theorem signed_neg_iff (s : Bool) (n : Nat) : signed s n < 0 ↔ s = true ∧ n ≠ 0 := by
  cases s with
  | false => simp [signed]
  | true =>
    simp [signed]
    omega

theorem toInt?_finite {s : Bool} {u : Nat} {h : Fits u} (hw : u % one = 0) :
    (finite s u h).toInt? = some (signed s (u / one)) := if_pos hw

theorem finite_eq {s t : Bool} {u v : Nat} {h : Fits u} {k : Fits v} (hs : s = t) (hu : u = v) :
    finite s u h = finite t v k := by
  subst hs hu
  rfl

theorem ofInt_signed {s : Bool} {u : Nat} (h : Fits u) (hw : u % one = 0)
    (hn : u / one < twoTo 53) :
    ofInt (signed s (u / one)) = finite (s && decide (u ≠ 0)) u h := by
  have hd : u / one * one = u := Nat.div_mul_cancel (Nat.dvd_of_mod_eq_zero hw)
  have hz : u / one = 0 ↔ u = 0 := by
    constructor
    · intro h0
      rw [← hd, h0, Nat.zero_mul]
    · rintro rfl
      exact Nat.zero_div one
  rw [ofInt_eq (by rwa [natAbs_signed])]
  apply finite_eq
  · rw [Bool.eq_iff_iff]
    simp [signed_neg_iff, hz]
  · rw [natAbs_signed, hd]

end Binary64

namespace Datum

open Binary64

def Survives (x : Binary64) : Prop := (numberJson x).asFloat? = some x

theorem numberJson_small {x : Binary64} {n : Int} (hx : x.toInt? = some n)
    (hn : n.natAbs < twoTo 53) : numberJson x = .int n := by
  simp [numberJson, hx, hn]

theorem numberJson_ofInt {n : Int} (h : n.natAbs < twoTo 53) :
    numberJson (Binary64.ofInt n) = .int n := by
  have hw : n.natAbs * one % one = 0 := Nat.mul_mod_left n.natAbs one
  have hs : signed (decide (n < 0)) n.natAbs = n := by
    rw [signed]
    split <;> simp_all only [decide_eq_true_eq] <;> omega
  refine numberJson_small ?_ h
  rw [ofInt_eq h, toInt?_finite hw, Nat.mul_div_cancel _ Binary64.one_pos, hs]

theorem numberJson_large {x : Binary64} (hf : x.isFinite = true)
    (hx : ∀ n, x.toInt? = some n → ¬ n.natAbs < twoTo 53) : numberJson x = .float x := by
  cases hi : x.toInt? with
  | none => simp [numberJson, hi, Json.ofFloat, hf]
  | some n => simp [numberJson, hi, hx n hi, Json.ofFloat, hf]

theorem numberJson_of_not_finite {x : Binary64} (hf : x.isFinite = false) :
    numberJson x = .null := by
  cases x with
  | nan => rfl
  | infinite s => rfl
  | finite s u h => cases hf

theorem survives_iff (x : Binary64) : Survives x ↔ x.isFinite = true ∧ x ≠ zero true := by
  cases hf : x.isFinite with
  | false => simp [Survives, numberJson_of_not_finite hf, Json.asFloat?]
  | true =>
    cases x with
    | nan => cases hf
    | infinite s => cases hf
    | finite s u h =>
      by_cases hs : u % one = 0 ∧ u / one < twoTo 53
      · have hj : numberJson (finite s u h) = .int (signed s (u / one)) :=
          numberJson_small (toInt?_finite hs.1) (by rw [natAbs_signed]; exact hs.2)
        simp only [Survives, hj, Json.asFloat?, ofInt_signed h hs.1 hs.2, Option.some.injEq,
          finite.injEq, zero, true_and, ne_eq]
        cases s <;> simp
      · have hj : numberJson (finite s u h) = .float (finite s u h) := by
          apply numberJson_large hf
          intro n hn hb
          by_cases hw : u % one = 0
          · rw [toInt?_finite hw, Option.some.injEq] at hn
            rw [← hn, natAbs_signed] at hb
            exact hs ⟨hw, hb⟩
          · simp [toInt?, hw] at hn
        have hu : u ≠ 0 := by
          rintro rfl
          exact hs ⟨Nat.zero_mod _, by rw [Nat.zero_div]; exact twoTo_pos 53⟩
        simp [Survives, hj, Json.asFloat?, zero, hu]

theorem numberJson_cases (x : Binary64) :
    numberJson x = .null ∨ ∃ y, Survives y ∧ numberJson y = numberJson x := by
  by_cases hx : Survives x
  · exact .inr ⟨x, hx, rfl⟩
  · rw [survives_iff] at hx
    cases hf : x.isFinite with
    | false => exact .inl (numberJson_of_not_finite hf)
    | true =>
      have hz : x = zero true := Decidable.byContradiction fun h => hx ⟨hf, h⟩
      subst hz
      refine .inr ⟨zero false, (survives_iff _).mpr ⟨rfl, by simp [zero]⟩, ?_⟩
      have hi (s : Bool) : (zero s).toInt? = some 0 := by
        simp [zero, toInt?, signed]
      rw [numberJson_small (hi false) (twoTo_pos 53), numberJson_small (hi true) (twoTo_pos 53)]

end Datum

end ReqlDriver
