import Mathlib.Data.List.TakeDrop
import ReqlDriver.Time.Offset

namespace ReqlDriver.Offset

open Integer

theorem int32?_twoDigits : ∀ n < 100, int32? (twoDigits n) = some (n : Int) := by decide +kernel

theorem all_twoDigits : ∀ n < 100, (twoDigits n).all (· != ':') = true := by decide +kernel

theorem parts?_clock {hours minutes : Nat} (hh : hours < 100) (hm : minutes < 100) :
    parts? (twoDigits hours ++ ':' :: twoDigits minutes) =
      some ((hours : Int), (minutes : Int)) := by
  have hs : (twoDigits hours ++ ':' :: twoDigits minutes).span (· != ':') =
      (twoDigits hours, ':' :: twoDigits minutes) := by
    have hc := List.all_eq_true.mp (all_twoDigits hours hh)
    rw [List.span_eq_takeWhile_dropWhile, List.takeWhile_append_of_pos hc,
      List.dropWhile_append_of_pos hc]
    simp
  simp only [parts?, hs, int32?_twoDigits hours hh, int32?_twoDigits minutes hm]
  rfl

theorem read?_signed {negative : Bool} {r : List Char} {hours minutes : Int}
    (h : parts? r = some (hours, minutes)) :
    read? (String.ofList ((if negative then '-' else '+') :: r)) =
      within? (seconds negative hours minutes) := by
  have hz : String.ofList ((if negative then '-' else '+') :: r) ≠ "Z" := by
    intro hz
    have hl := congrArg String.toList hz
    rw [String.toList_ofList] at hl
    cases negative <;> simp at hl
  rw [read?, if_neg hz, String.toList_ofList]
  cases negative <;> simp [h]

theorem read?_write {offset : Int} (hr : Moment.offsetInRange offset = true)
    (hm : 60 ∣ offset) : read? (write offset) = some offset := by
  obtain ⟨hl, hg⟩ := Bool.and_eq_true_iff.mp hr
  have hl := of_decide_eq_true hl
  have hg := of_decide_eq_true hg
  simp only [Moment.daySeconds] at hl hg
  have hp := parts?_clock (show offset.natAbs / 3600 < 100 by omega)
    (show offset.natAbs % 3600 / 60 < 100 by omega)
  have hs : (if decide (offset < 0) = true
      then -(((offset.natAbs / 3600 : Nat) : Int) * 3600 + (offset.natAbs % 3600 / 60 : Nat) * 60)
      else ((offset.natAbs / 3600 : Nat) : Int) * 3600 + (offset.natAbs % 3600 / 60 : Nat) * 60) =
      offset := by
    by_cases h : offset < 0
    · rw [if_pos (decide_eq_true h)]
      omega
    · rw [if_neg (by rwa [decide_eq_true_eq])]
      omega
  have hw : seconds (decide (offset < 0)) (offset.natAbs / 3600 : Nat)
      (offset.natAbs % 3600 / 60 : Nat) = offset := by
    rw [seconds, hs]
    apply Width.wrap_eq_self
    · simp only [Width.int32]
      omega
    · simp only [Width.int32]
      omega
  rw [write, clock, List.cons_append, read?_signed hp, hw, within?, if_pos hr]

end ReqlDriver.Offset
