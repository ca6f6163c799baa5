import Accessibility.Proofs.Number.Root
import Accessibility.Proofs.Progress.Level
import Accessibility.Proofs.Progress.Session

/-! # Levels as experience grows

The root that a level is read off is rounded twice. Rounding keeps the order, so levels never fall; and as long as
there are digits enough to tell a square from what is just below it, levels are exact. -/

namespace Accessibility.Level

open Binary64

/-- What a level is read off: the root of the quotient, both rounded. -/
noncomputable def reading (n : ℕ) : ℝ :=
  rounded √(rounded (n / step))

theorem quotient_nonneg (n : ℕ) : (0 : ℝ) ≤ n / step :=
  div_nonneg (Nat.cast_nonneg n) (Nat.cast_nonneg step)

theorem reading_le_reading {m n : ℕ} (h : m ≤ n) : reading m ≤ reading n := by
  have hquotient : (m : ℝ) / step ≤ n / step :=
    div_le_div_of_nonneg_right (Nat.cast_le.mpr h) (Nat.cast_nonneg step)
  have hrounded := rounded_le_rounded (quotient_nonneg m) hquotient
  exact rounded_le_rounded (Real.sqrt_nonneg _) (Real.sqrt_le_sqrt hrounded)

theorem ofExperience_eq {experience : Int} (h : experience < limit) :
    ofExperience experience = .ok (⌊reading experience.toNat⌋₊ + 1) := by
  unfold ofExperience
  cases hquotient : ofQuotient? experience.toNat step with
  | none => exact absurd h (not_lt.mpr ((ofQuotient?_step_eq_none_iff experience).mp hquotient))
  | some x =>
    have hvalue := value_of_ofQuotient? step_pos hquotient
    have hroot := value_sqrt (value_lt_of_ofQuotient? hquotient)
    dsimp only
    rw [Magnitude.floor_eq, hroot, hvalue]
    rfl

/-! ## Exact levels -/

theorem le_reading {k n : ℕ} (hk : k < 2 ^ 22) (h : k * k * step ≤ n) : (k : ℝ) ≤ reading n := by
  have hstep : (0 : ℝ) < step := Nat.cast_pos.mpr step_pos
  have hsquare : (k : ℝ) ^ 2 ≤ rounded (n / step) := by
    have hquotient : ((k * k : ℕ) : ℝ) ≤ n / step := by
      rw [le_div_iff₀ hstep]
      exact_mod_cast h
    have hrounded := rounded_le_rounded (Nat.cast_nonneg _) hquotient
    rw [rounded_natCast (by nlinarith)] at hrounded
    rw [pow_two]
    exact_mod_cast hrounded
  have hroot := rounded_le_rounded (Nat.cast_nonneg k) (Real.le_sqrt_of_sq_le hsquare)
  rw [rounded_natCast (by omega)] at hroot
  exact hroot

/-- There are digits enough for what is below the square of a level by less than a five hundredth. -/
theorem rounded_below_square {j : ℕ} (hpos : 0 < j) (hj : j ≤ 2 ^ 22) :
    rounded ((j : ℝ) ^ 2 - 1 / 2 ^ 9) = j ^ 2 - 1 / 2 ^ 9 := by
  have hmantissa : 2 ^ 9 * (j * j) - 1 < 2 ^ 53 := by
    have := Nat.mul_le_mul hj hj
    omega
  have hvalue : (j : ℝ) ^ 2 - 1 / 2 ^ 9 = (2 ^ 9 * (j * j) - 1 : ℕ) * 2 ^ (-9 : ℤ) := by
    have hless : 1 ≤ 2 ^ 9 * (j * j) := Nat.mul_pos (by decide) (Nat.mul_pos hpos hpos)
    rw [Nat.cast_sub hless]
    push_cast
    norm_num
    ring
  rw [hvalue]
  exact rounded_of_number hmantissa (by decide)

theorem rounded_quotient_le {j n : ℕ} (hpos : 0 < j) (hj : j ≤ 2 ^ 22) (h : n < j * j * step) :
    rounded (n / step) ≤ j ^ 2 - 1 / 2 ^ 9 := by
  have hquotient : (n : ℝ) / step ≤ j ^ 2 - 1 / 2 ^ 9 := by
    have hcast : (n : ℝ) + 1 ≤ j * j * step := by exact_mod_cast h
    have hfive : ((step : ℕ) : ℝ) = 500 := Nat.cast_ofNat
    rw [hfive] at hcast ⊢
    rw [div_le_iff₀ (by norm_num)]
    linarith
  exact (rounded_le_rounded (quotient_nonneg n) hquotient).trans_eq (rounded_below_square hpos hj)

/-- The root of what is so far below the square is below the level by more than half of its last place, so it is not
rounded up to the level. -/
theorem reading_lt {j n : ℕ} (hpos : 0 < j) (hj : j ≤ 2 ^ 22) (h : n < j * j * step) : reading n < j := by
  have hone : (1 : ℝ) ≤ j := Nat.one_le_cast.mpr hpos
  have hlarge : (j : ℝ) ≤ 2 ^ 22 := by exact_mod_cast hj
  have hroot : √(rounded (n / step)) < j - 1 / 2 ^ 32 := by
    have hbelow := rounded_quotient_le hpos hj h
    rw [Real.sqrt_lt' (by linarith)]
    nlinarith
  have hplace : √(rounded (n / step)) < 2 ^ (53 + -31 : ℤ) := by
    norm_num
    linarith
  have hup := rounded_le_add (Real.sqrt_nonneg _) (by decide) hplace
  have hhalf : (2 : ℝ) ^ (-31 - 1 : ℤ) = 1 / 2 ^ 32 := by norm_num
  rw [hhalf] at hup
  unfold reading
  linarith

theorem sqrt_bounds (n : ℕ) :
    Nat.sqrt (n / step) * Nat.sqrt (n / step) * step ≤ n ∧
      n < (Nat.sqrt (n / step) + 1) * (Nat.sqrt (n / step) + 1) * step :=
  ⟨(Nat.le_div_iff_mul_le step_pos).mp (Nat.sqrt_le _), (Nat.div_lt_iff_lt_mul step_pos).mp (Nat.lt_succ_sqrt _)⟩

theorem floor_reading {n : ℕ} (h : n < step * 2 ^ 44) : ⌊reading n⌋₊ = Nat.sqrt (n / step) := by
  obtain ⟨hlow, hhigh⟩ := sqrt_bounds n
  have hsmall : Nat.sqrt (n / step) < 2 ^ 22 := Nat.sqrt_lt.mpr (Nat.div_lt_of_lt_mul h)
  have hle := le_reading hsmall hlow
  have hlt := reading_lt (Nat.succ_pos _) hsmall hhigh
  rw [Nat.floor_eq_iff ((Nat.cast_nonneg _).trans hle)]
  exact ⟨hle, by exact_mod_cast hlt⟩

theorem lt_limit {experience : Int} (h : experience < 500 * 2 ^ 44) : experience < limit := by
  have hle : ((500 * 2 ^ 44 : ℕ) : Int) ≤ limit := by
    unfold limit
    exact_mod_cast Nat.mul_le_mul_left step (twoTo_le_tooLarge (k := 44) (by decide))
  exact h.trans_le hle

/-- Below the experience of four million levels, the level is that of exact arithmetic: the one whose bounds the
experience is within. -/
theorem ofExperience_exact {experience : Int} (h : experience < 500 * 2 ^ 44) :
    ∃ level : Nat, ofExperience experience = .ok level ∧ 1 ≤ level ∧
      nextAt (level - 1) ≤ max 0 experience ∧ max 0 experience < nextAt level ∧
      level = Nat.sqrt ((max 0 experience).toNat / step) + 1 := by
  obtain ⟨n, hn, hsame⟩ : ∃ n : ℕ, max 0 experience = n ∧ experience.toNat = n :=
    ⟨experience.toNat, by omega, rfl⟩
  have hfloor : ⌊reading n⌋₊ = Nat.sqrt (n / step) := floor_reading (by unfold step; omega)
  obtain ⟨hlow, hhigh⟩ := sqrt_bounds n
  rw [ofExperience_eq (lt_limit h), hsame, hfloor, hn, Int.toNat_natCast]
  refine ⟨_, rfl, Nat.succ_pos _, ?_, ?_, rfl⟩
  · unfold nextAt
    rw [Nat.cast_succ, Int.add_sub_cancel]
    exact_mod_cast hlow
  · unfold nextAt
    exact_mod_cast hhigh

theorem ofExperience_exact_last : (500 * 2 ^ 44 - 1 : Int) < 500 * 2 ^ 44 ∧
    ofExperience (500 * 2 ^ 44 - 1) = .ok (2 ^ 22) := by
  have hlt : (500 * 2 ^ 44 - 1 : Int) < 500 * 2 ^ 44 := by decide
  obtain ⟨level, hok, -, -, -, rfl⟩ := ofExperience_exact hlt
  refine ⟨hlt, hok.trans (congrArg Except.ok ?_)⟩
  have hquotient : (max 0 (500 * 2 ^ 44 - 1 : Int)).toNat / step = 2 ^ 44 - 1 := by decide
  rw [hquotient]
  exact congrArg Nat.succ (Nat.eq_sqrt.mpr (by decide)).symm

/-! ## Levels never fall -/

/-- The quotient is too large for a number from the middle on between the largest number and the next power of two. -/
theorem limit_le_iff (experience : Int) : limit ≤ experience ↔ (2 : ℝ) ^ 1024 - 2 ^ 970 ≤ experience / step := by
  rw [← cast_tooLarge, le_div_iff₀ (Nat.cast_pos.mpr step_pos), mul_comm]
  unfold limit
  exact_mod_cast Iff.rfl

theorem level_le_level {a b : Int} {high : ℕ} (hab : a ≤ b) (h : ofExperience b = .ok high) :
    ∃ low, ofExperience a = .ok low ∧ low ≤ high := by
  have hb := (exists_ofExperience_iff b).mp ⟨high, h⟩
  rw [ofExperience_eq hb] at h
  cases h
  refine ⟨_, ofExperience_eq (hab.trans_lt hb), ?_⟩
  exact Nat.succ_le_succ (Nat.floor_le_floor (reading_le_reading (Int.toNat_le_toNat hab)))

theorem ofExperience_eq_error_iff (experience : Int) (fault : Fault) :
    ofExperience experience = .error fault ↔ fault = .quotientTooLarge ∧ limit ≤ experience := by
  rw [← ofQuotient?_step_eq_none_iff]
  unfold ofExperience
  cases ofQuotient? experience.toNat step with
  | none => simp [eq_comm]
  | some x => simp

/-- Levels never fall as experience grows, as long as there are levels at all. -/
theorem never_falls :
    (∀ (a b : Int) (high : ℕ), a ≤ b → ofExperience b = .ok high → ∃ low, ofExperience a = .ok low ∧ low ≤ high) ∧
    (∀ (experience : Int) (fault : Fault), ofExperience experience = .error fault ↔
      fault = .quotientTooLarge ∧ (2 : ℝ) ^ 1024 - 2 ^ 970 ≤ experience / step) ∧
    (∀ (c : Completion) (reward : Reward), Reward.ofCompletion true c = .ok reward →
      ∃ level, ofExperience c.experience = .ok level ∧ level ≤ reward.level) := by
  refine ⟨fun a b high => level_le_level, ?_, ?_⟩
  · intro experience fault
    rw [← limit_le_iff]
    exact ofExperience_eq_error_iff experience fault
  · intro c reward hreward
    rw [Reward.ofCompletion, if_pos rfl] at hreward
    obtain ⟨level, hlevel, rfl⟩ := exists_of_map_eq_ok hreward
    have hgain := Reward.gain_pos c
    exact level_le_level (by omega) hlevel

/-- Experience with more digits than are kept: one point less is rounded up, and has the same level. -/
theorem never_falls_rounded_up : ofExperience (500 * 2 ^ 60) = .ok (2 ^ 30 + 1) ∧
    ∃ low, ofExperience (500 * 2 ^ 60 - 1) = .ok low ∧ low ≤ 2 ^ 30 + 1 := by
  have hlevel : (ofExperience (500 * 2 ^ 60)).toOption = some (2 ^ 30 + 1) := by decide +kernel
  have hok : ofExperience (500 * 2 ^ 60) = .ok (2 ^ 30 + 1) := by
    cases hexperience : ofExperience (500 * 2 ^ 60) with
    | error fault =>
      rw [hexperience] at hlevel
      cases hlevel
    | ok level =>
      rw [hexperience] at hlevel
      exact congrArg Except.ok (Option.some.inj hlevel)
  exact ⟨hok, never_falls.1 _ _ _ (by decide) hok⟩

end Accessibility.Level
