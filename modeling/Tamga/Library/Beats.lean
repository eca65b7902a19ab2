import Mathlib.Algebra.Order.Archimedean.Basic
import Mathlib.Data.Rat.Floor
import Mathlib.Tactic.Linarith
import Mathlib.Tactic.Positivity

namespace Library.Beats

variable {period window : ℚ} {losses : ℕ} {heard : ℕ → Prop}

/-- At this time some beat that was heard is no older than the window. -/
def AliveAt (period window : ℚ) (heard : ℕ → Prop) (time : ℚ) : Prop :=
  ∃ beat : ℕ, heard beat ∧ beat * period ≤ time ∧ time ≤ beat * period + window

/-- The first beat is heard, and no more than so many in a row are lost. -/
structure LosesAtMost (losses : ℕ) (heard : ℕ → Prop) : Prop where
  first : heard 0
  next : ∀ beat, ∃ later, beat ≤ later ∧ later ≤ beat + losses ∧ heard later

/-- Whichever beats are lost, if no more than so many in a row, the sender is taken for
alive all along. -/
def Tolerates (period window : ℚ) (losses : ℕ) : Prop :=
  ∀ heard, LosesAtMost losses heard → ∀ time, 0 ≤ time → AliveAt period window heard time

theorem LosesAtMost.exists_last (h : LosesAtMost losses heard) (sent : ℕ) :
    ∃ beat, heard beat ∧ beat ≤ sent ∧ sent ≤ beat + losses := by
  rcases le_or_gt sent losses with hfew | hmany
  · exact ⟨0, h.first, Nat.zero_le _, by omega⟩
  · obtain ⟨beat, hlow, hhigh, hheard⟩ := h.next (sent - losses)
    exact ⟨beat, hheard, by omega, by omega⟩

theorem losesAtMost_multiples (losses : ℕ) : LosesAtMost losses fun beat => losses + 1 ∣ beat where
  first := dvd_zero _
  next beat := by
    have hmod : beat % (losses + 1) < losses + 1 := Nat.mod_lt _ losses.succ_pos
    rcases Nat.eq_zero_or_pos (beat % (losses + 1)) with hzero | hpos
    · exact ⟨beat, le_refl _, by omega, Nat.dvd_of_mod_eq_zero hzero⟩
    · refine ⟨(losses + 1) * (beat / (losses + 1) + 1), ?_, ?_, dvd_mul_right _ _⟩
      · have hdiv := Nat.div_add_mod beat (losses + 1)
        rw [Nat.mul_add]
        omega
      · have hdiv := Nat.div_add_mod beat (losses + 1)
        rw [Nat.mul_add]
        omega

theorem tolerates_iff (hperiod : 0 < period) :
    Tolerates period window losses ↔ (losses + 1) * period ≤ window := by
  constructor
  · -- the last beat of each row of losses plus one is heard, and those only
    intro h
    by_contra! hshort
    have hnonneg : 0 ≤ window := by
      obtain ⟨beat, -, hlow, hhigh⟩ := h _ (losesAtMost_multiples losses) 0 (le_refl _)
      linarith
    obtain ⟨time, hlate, hearly⟩ := exists_between hshort
    obtain ⟨beat, ⟨k, rfl⟩, hlow, hhigh⟩ :=
      h _ (losesAtMost_multiples losses) time (hnonneg.trans hlate.le)
    rcases Nat.eq_zero_or_pos k with rfl | hk
    · rw [Nat.mul_zero, Nat.cast_zero, zero_mul, zero_add] at hhigh
      exact absurd hlate hhigh.not_gt
    · have hone : ((losses : ℚ) + 1) * period ≤ ((losses + 1) * k : ℕ) * period := by
        apply mul_le_mul_of_nonneg_right _ hperiod.le
        have hle : losses + 1 ≤ (losses + 1) * k := Nat.le_mul_of_pos_right _ hk
        exact_mod_cast hle
      linarith
  · intro hwindow heard hheard time htime
    have hsent : (⌊time / period⌋₊ : ℚ) * period ≤ time :=
      (le_div_iff₀ hperiod).mp (Nat.floor_le (div_nonneg htime hperiod.le))
    have hbefore : time < (⌊time / period⌋₊ + 1) * period :=
      (div_lt_iff₀ hperiod).mp (Nat.lt_floor_add_one _)
    obtain ⟨beat, hbeat, hle, hge⟩ := hheard.exists_last ⌊time / period⌋₊
    refine ⟨beat, hbeat, ?_, ?_⟩
    · exact (mul_le_mul_of_nonneg_right (Nat.cast_le.mpr hle) hperiod.le).trans hsent
    · have hcast : (⌊time / period⌋₊ : ℚ) ≤ beat + losses := by exact_mod_cast hge
      have hmul := mul_le_mul_of_nonneg_right hcast hperiod.le
      linarith

end Library.Beats
