import Accessibility.Progress.Level
import Accessibility.Proofs.Number.Rounding

/-! # Which experience has a level -/

namespace Accessibility.Level

/-- The least experience that has no level, since its quotient is too large for a number. -/
def limit : Int :=
  step * Binary64.tooLarge

theorem step_pos : 0 < step := by
  decide

theorem limit_pos : 0 < limit :=
  Int.mul_pos (Int.natCast_pos.mpr step_pos) (Int.natCast_pos.mpr Binary64.tooLarge_pos)

theorem ofQuotient?_step_eq_none_iff (experience : Int) :
    Binary64.ofQuotient? experience.toNat step = none ↔ limit ≤ experience := by
  have hpos := limit_pos
  rw [Binary64.ofQuotient?_eq_none_iff _ step_pos, Nat.mul_comm]
  unfold limit at hpos ⊢
  omega

/-- All experience below the limit has a level. -/
theorem exists_ofExperience_iff (experience : Int) :
    (∃ level, ofExperience experience = .ok level) ↔ experience < limit := by
  rw [← not_le, ← ofQuotient?_step_eq_none_iff]
  unfold ofExperience
  cases Binary64.ofQuotient? experience.toNat step with
  | none => simp
  | some x => simp

end Accessibility.Level
