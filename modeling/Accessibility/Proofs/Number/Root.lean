import Accessibility.Proofs.Number.Nearest
import Mathlib.Analysis.Real.Sqrt

/-! # Rounding square roots

The root of a number is computed from the root of an integer, and what that lacks is replaced by a half. No multiple of
a power of two that decides on the rounding is between the root and what stands for it. -/

namespace Accessibility.Binary64

/-! ## The root of an integer -/

theorem floorSqrt_eq (n : ℕ) : floorSqrt n = Nat.sqrt n := by
  induction n using floorSqrt.induct with
  | case1 => simp [floorSqrt]
  | case2 n hn r hle ih =>
    have hhigh := Nat.lt_succ_sqrt (n / 4)
    simp only [r, ih] at hle
    rw [floorSqrt, dif_neg hn, ih, if_pos hle, Nat.eq_sqrt]
    refine ⟨hle, ?_⟩
    nlinarith [Nat.lt_mul_div_succ n four_pos]
  | case3 n hn r hlt ih =>
    have hlow := Nat.sqrt_le (n / 4)
    simp only [r, ih] at hlt
    rw [floorSqrt, dif_neg hn, ih, if_neg hlt, Nat.eq_sqrt]
    refine ⟨?_, not_le.mp hlt⟩
    nlinarith [Nat.mul_div_le n 4]

/-- Twice the root of an integer, with a one in place of what the integer root lacks. -/
def twiceRoot (n : ℕ) : ℕ :=
  if floorSqrt n * floorSqrt n = n then 2 * floorSqrt n else 2 * floorSqrt n + 1

theorem twiceRoot_cases (n : ℕ) :
    ∃ s : ℕ, (√(n : ℝ) = s ∧ twiceRoot n = 2 * s) ∨ ((s : ℝ) < √n ∧ √n < s + 1 ∧ twiceRoot n = 2 * s + 1) := by
  refine ⟨Nat.sqrt n, ?_⟩
  unfold twiceRoot
  rw [floorSqrt_eq]
  split
  · rename_i hexact
    refine .inl ⟨?_, rfl⟩
    rw [← hexact, Nat.sqrt_eq, Nat.cast_mul, Real.sqrt_mul_self (Nat.cast_nonneg _)]
  · rename_i hinexact
    have hlt : Nat.sqrt n * Nat.sqrt n < n := lt_of_le_of_ne (Nat.sqrt_le n) hinexact
    refine .inr ⟨?_, Real.real_sqrt_lt_nat_sqrt_succ, rfl⟩
    rw [Real.lt_sqrt (Nat.cast_nonneg _), pow_two]
    exact_mod_cast hlt

/-- No integer is between the root and half of what stands for it twice. -/
theorem le_twiceRoot_iff (n : ℕ) (t : ℤ) : (t : ℝ) ≤ (twiceRoot n : ℝ) / 2 ↔ (t : ℝ) ≤ √n := by
  obtain ⟨s, ⟨hroot, htwice⟩ | ⟨hlow, hhigh, htwice⟩⟩ := twiceRoot_cases n
  · rw [hroot, htwice, Nat.cast_mul, Nat.cast_ofNat, mul_div_cancel_left₀ _ two_ne_zero]
  · rw [htwice]
    push_cast
    constructor <;> intro ht
    · have hint : (t : ℝ) < s + 1 := by linarith
      have hle : t ≤ s := Int.lt_add_one_iff.mp (by exact_mod_cast hint)
      exact (Int.cast_le.mpr hle).trans (by exact_mod_cast hlow.le)
    · have hint : (t : ℝ) < s + 1 := ht.trans_lt hhigh
      have hle : t ≤ s := Int.lt_add_one_iff.mp (by exact_mod_cast hint)
      have hcast : (t : ℝ) ≤ s := by exact_mod_cast hle
      linarith

theorem twiceRoot_le_iff (n : ℕ) (t : ℤ) : (twiceRoot n : ℝ) / 2 ≤ t ↔ √n ≤ t := by
  obtain ⟨s, ⟨hroot, htwice⟩ | ⟨hlow, hhigh, htwice⟩⟩ := twiceRoot_cases n
  · rw [hroot, htwice, Nat.cast_mul, Nat.cast_ofNat, mul_div_cancel_left₀ _ two_ne_zero]
  · rw [htwice]
    push_cast
    constructor <;> intro ht
    · have hint : (s : ℝ) < t := by linarith
      have hle : (s : ℤ) + 1 ≤ t := Int.add_one_le_iff.mpr (by exact_mod_cast hint)
      have hcast : (s : ℝ) + 1 ≤ t := by exact_mod_cast hle
      linarith
    · have hint : (s : ℝ) < t := hlow.trans_le ht
      have hle : (s : ℤ) + 1 ≤ t := Int.add_one_le_iff.mpr (by exact_mod_cast hint)
      have hcast : (s : ℝ) + 1 ≤ t := by exact_mod_cast hle
      linarith

/-! ## The root of a number -/

/-- The root of a number is that of an integer with many digits, in a unit that is a power of two. -/
theorem sqrt_eq (x : Magnitude) : ∃ (n : ℕ) (g : ℤ), x.value = n * (2 ^ g) ^ 2 ∧ (n = 0 ∨ 2 ^ 110 ≤ n) ∧
    x.sqrt = (ofQuotient? (twiceRoot n * twoTo (g - 1).toNat) (twoTo (-(g - 1)).toNat)).getD ⟨0, 0⟩ := by
  obtain ⟨shift, hshift, hmany, heven⟩ : ∃ shift : ℕ, shift = (if x.exponent % 2 = 0 then 110 else 111) ∧
      110 ≤ shift ∧ x.exponent = shift + ((x.exponent - shift) / 2 + (x.exponent - shift) / 2) := by
    refine ⟨_, rfl, ?_, ?_⟩ <;> split <;> omega
  refine ⟨x.mantissa * twoTo shift, (x.exponent - shift) / 2, ?_, ?_, ?_⟩
  · unfold Magnitude.value
    nth_rewrite 1 [heven]
    rw [zpow_add₀ two_ne_zero, zpow_add₀ two_ne_zero, zpow_natCast, Nat.cast_mul, cast_twoTo]
    ring
  · rcases x.mantissa.eq_zero_or_pos with hzero | hpos
    · exact .inl (by rw [hzero, Nat.zero_mul])
    · exact .inr ((twoTo_le_twoTo hmany).trans (Nat.le_mul_of_pos_left _ hpos))
  · rw [hshift]
    rfl

/-- What stands for the root is in the same places as the root itself. -/
theorem precedes_root (n : ℕ) (g : ℤ) :
    Precedes g ((twiceRoot n : ℝ) / 2 * 2 ^ g) (√n * 2 ^ g) ∧
      Precedes g (√n * 2 ^ g) ((twiceRoot n : ℝ) / 2 * 2 ^ g) := by
  have hpos : (0 : ℝ) < 2 ^ g := zpow_pos two_pos g
  constructor <;> constructor <;> intro t <;> rw [mul_le_mul_iff_left₀ hpos, mul_le_mul_iff_left₀ hpos]
  · exact (le_twiceRoot_iff n t).mp
  · exact (twiceRoot_le_iff n t).mpr
  · exact (le_twiceRoot_iff n t).mpr
  · exact (twiceRoot_le_iff n t).mp

/-- So it is rounded as the root. -/
theorem rounded_root (n : ℕ) (g : ℤ) (hn : n = 0 ∨ 2 ^ 110 ≤ n) :
    rounded ((twiceRoot n : ℝ) / 2 * 2 ^ g) = rounded (√n * 2 ^ g) := by
  rcases hn with rfl | hmany
  · have hzero : twiceRoot 0 = 0 := by simp [twiceRoot, floorSqrt_eq]
    rw [hzero]
    simp
  have hroot : (2 : ℝ) ^ 55 ≤ √n := by
    refine Real.le_sqrt_of_sq_le ?_
    exact_mod_cast hmany
  have hhalf : (2 : ℝ) ^ 55 ≤ (twiceRoot n : ℝ) / 2 := by
    have hinteger := le_twiceRoot_iff n ((2 ^ 55 : ℕ) : ℤ)
    rw [Int.cast_natCast, Nat.cast_pow, Nat.cast_ofNat] at hinteger
    exact hinteger.mpr hroot
  have hfine : ∀ {a : ℝ}, 2 ^ 55 ≤ a → 0 < a * 2 ^ g ∧ g < place (a * 2 ^ g) := by
    intro a ha
    have hpos : (0 : ℝ) < 2 ^ g := zpow_pos two_pos g
    have hlarge : (2 : ℝ) ^ (53 + g) ≤ a * 2 ^ g := by
      rw [zpow_add₀ two_ne_zero, zpow_ofNat]
      exact mul_le_mul_of_nonneg_right (le_trans (by norm_num) ha) hpos.le
    exact ⟨(zpow_pos two_pos _).trans_le hlarge, lt_place hlarge⟩
  obtain ⟨hbelow, habove⟩ := precedes_root n g
  have hleft := hfine hhalf
  have hright := hfine hroot
  exact le_antisymm (hbelow.rounded_le hleft.1 hright.1 hleft.2) (habove.rounded_le hright.1 hleft.1 hright.2)

theorem half_twiceRoot_le (n : ℕ) : (twiceRoot n : ℝ) / 2 ≤ 2 * √n := by
  obtain ⟨s, ⟨hroot, htwice⟩ | ⟨hlow, -, htwice⟩⟩ := twiceRoot_cases n <;> rw [htwice] <;> push_cast
  · linarith [Real.sqrt_nonneg (n : ℝ)]
  · have hpos : 0 < n := by
      have := Real.sqrt_pos.mp ((Nat.cast_nonneg s).trans_lt hlow)
      exact_mod_cast this
    have hone : 1 ≤ √(n : ℝ) := Real.one_le_sqrt.mpr (by exact_mod_cast hpos)
    linarith

theorem two_mul_sqrt_lt {v a : ℝ} (ha : 8 ≤ a) (h : v < 2 * a) : 2 * √v < a := by
  have hroot : √v < a / 2 := by
    rw [Real.sqrt_lt' (by linarith)]
    nlinarith
  linarith

/-- The root of a number that is not too large is far from being too large. -/
theorem two_mul_sqrt_lt_tooLarge {v : ℝ} (h : v < (twoTo 1024 : ℕ)) : 2 * √v < (tooLarge : ℕ) := by
  have height : (8 : ℝ) ≤ (twoTo 1023 : ℕ) := by
    exact_mod_cast twoTo_le_twoTo (k := 3) (by decide)
  have hdouble : ((twoTo 1024 : ℕ) : ℝ) = 2 * (twoTo 1023 : ℕ) := by
    rw [twoTo_eq_mul (k := 1024) (l := 1) (m := 1023) rfl, Nat.cast_mul]
    rfl
  exact (two_mul_sqrt_lt height (hdouble ▸ h)).trans_le (Nat.cast_le.mpr (twoTo_le_tooLarge le_rfl))

/-- A square root is rounded as the real number that it is. -/
theorem value_sqrt {x : Magnitude} (h : x.value < (twoTo 1024 : ℕ)) : x.sqrt.value = rounded (√x.value) := by
  obtain ⟨n, g, hvalue, hn, hsqrt⟩ := sqrt_eq x
  have hroot : √x.value = √n * 2 ^ g := by
    rw [hvalue, Real.sqrt_mul (Nat.cast_nonneg n), Real.sqrt_sq (zpow_pos two_pos g).le]
  have hquotient : ((twiceRoot n * twoTo (g - 1).toNat : ℕ) : ℝ) / (twoTo (-(g - 1)).toNat : ℕ) =
      (twiceRoot n : ℝ) / 2 * 2 ^ g := by
    rw [Nat.cast_mul, mul_div_assoc, twoTo_div_twoTo, zpow_sub_one₀ two_ne_zero]
    ring
  rw [hsqrt]
  cases hrounded : ofQuotient? (twiceRoot n * twoTo (g - 1).toNat) (twoTo (-(g - 1)).toNat) with
  | some y =>
    rw [Option.getD_some, value_of_ofQuotient? (twoTo_pos _) hrounded, hquotient, rounded_root n g hn, hroot]
  | none =>
    have hle := (ofQuotient?_eq_none_iff _ (twoTo_pos _)).mp hrounded
    have hlarge : ((tooLarge : ℕ) : ℝ) ≤ (twiceRoot n : ℝ) / 2 * 2 ^ g := by
      rw [← hquotient, le_div_iff₀ (Nat.cast_pos.mpr (twoTo_pos _))]
      exact_mod_cast hle
    have hsmall : (twiceRoot n : ℝ) / 2 * 2 ^ g ≤ 2 * √x.value := by
      rw [hroot, ← mul_assoc]
      exact mul_le_mul_of_nonneg_right (half_twiceRoot_le n) (zpow_pos two_pos g).le
    exact absurd (two_mul_sqrt_lt_tooLarge h) (not_lt.mpr (hlarge.trans hsmall))

/-- No number of 53 digits is nearer to a square root than its rounded value. -/
theorem sqrt_nearest {x : Magnitude} {m : ℕ} {e : ℤ} (h : x.value < (twoTo 1024 : ℕ)) (hm : m < 2 ^ 53)
    (he : -1074 ≤ e) : |x.sqrt.value - √x.value| ≤ |(m : ℝ) * 2 ^ e - √x.value| := by
  rw [value_sqrt h]
  exact abs_rounded_sub_le (Real.sqrt_nonneg _) hm he

end Accessibility.Binary64
