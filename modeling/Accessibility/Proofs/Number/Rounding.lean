import Accessibility.Number.Binary64
import Mathlib.Algebra.Order.Field.Power
import Mathlib.Algebra.Order.Field.Rat
import Mathlib.Data.Nat.Cast.Order.Ring
import Mathlib.Tactic.Linarith
import Mathlib.Tactic.Ring

/-! # Which quotients are too large

A quotient has a rounded value unless it reaches the middle between the largest number with 53 binary digits and the
next power of two, which is the even one of the two. -/

namespace Accessibility.Binary64

/-! ## Powers of two -/

theorem twoTo_pos (k : ℕ) : 0 < twoTo k :=
  Nat.two_pow_pos k

theorem twoTo_eq_mul {k l m : ℕ} (h : l + m = k) : twoTo k = twoTo l * twoTo m := by
  rw [← h]
  exact Nat.pow_add 2 l m

theorem twoTo_le_twoTo {k l : ℕ} (h : k ≤ l) : twoTo k ≤ twoTo l :=
  Nat.pow_le_pow_right two_pos h

theorem twoTo_toNat (x : ℤ) : ((twoTo x.toNat : ℕ) : ℚ) = 2 ^ x * (twoTo (-x).toNat : ℕ) := by
  have hpow : ∀ k : ℕ, ((twoTo k : ℕ) : ℚ) = 2 ^ (k : ℤ) := by
    intro k
    rw [zpow_natCast]
    exact_mod_cast rfl
  rw [hpow, hpow, ← zpow_add₀ two_ne_zero]
  congr 1
  omega

/-- To compare with a quotient and a power of two, the power may be on either side. -/
theorem mul_twoTo_le_iff (m n : ℕ) (x : ℤ) :
    m * twoTo x.toNat ≤ n * twoTo (-x).toNat ↔ (m : ℚ) * 2 ^ x ≤ n := by
  have hpos : (0 : ℚ) < (twoTo (-x).toNat : ℕ) := Nat.cast_pos.mpr (Nat.two_pow_pos _)
  have hcast : m * twoTo x.toNat ≤ n * twoTo (-x).toNat ↔
      (m : ℚ) * (twoTo x.toNat : ℕ) ≤ n * (twoTo (-x).toNat : ℕ) := by
    exact_mod_cast Iff.rfl
  rw [hcast, twoTo_toNat, ← mul_assoc, mul_le_mul_iff_left₀ hpos]

/-! ## The size of a quotient -/

variable {n d : ℕ}

theorem cast_log2_bounds (hn : n ≠ 0) : (2 : ℚ) ^ (n.log2 : ℤ) ≤ n ∧ (n : ℚ) < 2 ^ (n.log2 + 1 : ℤ) := by
  constructor
  · rw [zpow_natCast]
    exact_mod_cast Nat.log2_self_le hn
  · exact_mod_cast Nat.lt_log2_self

/-- The logarithm is that of the largest power of two below the quotient. -/
theorem floorLog_bounds (hn : n ≠ 0) (hd : d ≠ 0) :
    (d : ℚ) * 2 ^ floorLog n d ≤ n ∧ (n : ℚ) < d * 2 ^ (floorLog n d + 1) := by
  obtain ⟨hnlow, hnhigh⟩ := cast_log2_bounds hn
  obtain ⟨hdlow, hdhigh⟩ := cast_log2_bounds hd
  have hpow : ∀ x : ℤ, (0 : ℚ) < 2 ^ x := fun x => zpow_pos two_pos x
  unfold floorLog
  dsimp only
  split
  · rename_i hle
    refine ⟨(mul_twoTo_le_iff d n _).mp hle, ?_⟩
    calc (n : ℚ) < 2 ^ (n.log2 + 1 : ℤ) := hnhigh
      _ = 2 ^ (d.log2 : ℤ) * 2 ^ ((n.log2 : ℤ) - d.log2 + 1) := by
        rw [← zpow_add₀ two_ne_zero]
        congr 1
        omega
      _ ≤ d * 2 ^ ((n.log2 : ℤ) - d.log2 + 1) := mul_le_mul_of_nonneg_right hdlow (hpow _).le
  · rename_i hlt
    constructor
    · calc (d : ℚ) * 2 ^ ((n.log2 : ℤ) - d.log2 - 1)
        _ ≤ 2 ^ (d.log2 + 1 : ℤ) * 2 ^ ((n.log2 : ℤ) - d.log2 - 1) :=
          mul_le_mul_of_nonneg_right hdhigh.le (hpow _).le
        _ = 2 ^ (n.log2 : ℤ) := by
          rw [← zpow_add₀ two_ne_zero]
          congr 1
          omega
        _ ≤ n := hnlow
    · rw [Int.sub_add_cancel]
      exact lt_of_not_ge fun hge => hlt ((mul_twoTo_le_iff d n _).mpr hge)

/-! ## Rounding to an integer -/

theorem le_nearest {k : ℕ} (hd : 0 < d) (h : k * d ≤ n) : k ≤ nearest n d := by
  have hdiv : k ≤ n / d := (Nat.le_div_iff_mul_le hd).mpr h
  unfold nearest
  dsimp only
  split
  · exact Nat.le_succ_of_le hdiv
  · exact hdiv

theorem nearest_le {k : ℕ} (hd : 0 < d) (h : n < k * d) : nearest n d ≤ k := by
  have hdiv : n / d < k := (Nat.div_lt_iff_lt_mul hd).mpr h
  unfold nearest
  dsimp only
  split
  · exact hdiv
  · exact hdiv.le

/-- The middle between an odd number and the next is rounded up. -/
theorem nearest_eq_succ_iff {k : ℕ} (hd : 0 < d) (hodd : k % 2 = 1) (h : n < (k + 1) * d) :
    nearest n d = k + 1 ↔ (2 * k + 1) * d ≤ 2 * n := by
  have hsplit := Nat.div_add_mod n d
  have hdiv : n / d ≤ k := Nat.lt_succ_iff.mp ((Nat.div_lt_iff_lt_mul hd).mpr h)
  unfold nearest
  dsimp only
  rcases Nat.lt_or_eq_of_le hdiv with hlt | heq
  · have hbelow : 2 * n < (2 * k + 1) * d := by
      have hmod := Nat.mod_lt n hd
      nlinarith
    have hsmall : (if d < 2 * (n % d) ∨ 2 * (n % d) = d ∧ n / d % 2 = 1 then n / d + 1 else n / d) ≤ k := by
      split <;> omega
    omega
  · have hmiddle : (2 * k + 1) * d ≤ 2 * n ↔ d ≤ 2 * (n % d) := by
      rw [heq] at hsplit
      constructor <;> intro hle <;> nlinarith
    rw [hmiddle, heq]
    split <;> omega

/-! ## Rounding to 53 digits -/

/-- A quotient has no more than 53 digits before its last place. -/
theorem lt_of_lastPlace (n : ℕ) (hd : d ≠ 0) :
    n * twoTo (-lastPlace n d).toNat < 2 ^ 53 * d * twoTo (lastPlace n d).toNat := by
  by_cases hn : n = 0
  · rw [hn, Nat.zero_mul]
    exact Nat.mul_pos (Nat.mul_pos (by decide) (Nat.pos_of_ne_zero hd)) (Nat.two_pow_pos _)
  refine Nat.lt_of_not_le fun hle => ?_
  have hplace : floorLog n d + 1 ≤ 53 + lastPlace n d := by
    unfold lastPlace
    omega
  have hscaled := (mul_twoTo_le_iff (2 ^ 53 * d) n _).mp hle
  have hpow : (d : ℚ) * 2 ^ (floorLog n d + 1) ≤ (2 ^ 53 * d : ℕ) * 2 ^ lastPlace n d := by
    calc (d : ℚ) * 2 ^ (floorLog n d + 1)
      _ ≤ d * 2 ^ (53 + lastPlace n d) :=
        mul_le_mul_of_nonneg_left (zpow_le_zpow_right₀ one_le_two hplace) (Nat.cast_nonneg d)
      _ = (2 ^ 53 * d : ℕ) * 2 ^ lastPlace n d := by
        rw [zpow_add₀ two_ne_zero]
        push_cast
        ring
  exact absurd ((floorLog_bounds hn hd).2.trans_le (hpow.trans hscaled)) (lt_irrefl _)

/-- Above the smallest place it has all of them. -/
theorem le_of_lastPlace (hn : n ≠ 0) (hd : d ≠ 0) (hplace : -1074 < lastPlace n d) :
    2 ^ 52 * d * twoTo (lastPlace n d).toNat ≤ n * twoTo (-lastPlace n d).toNat := by
  have hlog : floorLog n d = 52 + lastPlace n d := by
    unfold lastPlace at hplace ⊢
    omega
  rw [mul_twoTo_le_iff]
  calc ((2 ^ 52 * d : ℕ) : ℚ) * 2 ^ lastPlace n d
    _ = d * 2 ^ floorLog n d := by
      rw [hlog, zpow_add₀ two_ne_zero]
      push_cast
      ring
    _ ≤ n := (floorLog_bounds hn hd).1

/-! ## The largest numbers -/

/-- Half of the last place of the largest numbers. It has too many digits to be computed with. -/
@[irreducible]
def halfPlace : ℕ :=
  twoTo 970

theorem halfPlace_eq : halfPlace = twoTo 970 := by
  unfold halfPlace
  rfl

theorem halfPlace_pos : 0 < halfPlace := by
  rw [halfPlace_eq]
  exact twoTo_pos 970

theorem twoTo_eq_mul_halfPlace {k l : ℕ} (h : l + 970 = k) : twoTo k = twoTo l * halfPlace := by
  rw [halfPlace_eq]
  exact twoTo_eq_mul h

/-- The least integer that is too large: the middle between the largest number and the power of two behind it. -/
def tooLarge : ℕ :=
  (2 ^ 54 - 1) * halfPlace

theorem tooLarge_pos : 0 < tooLarge :=
  Nat.mul_pos (by decide) halfPlace_pos

theorem twoTo_le_tooLarge {k : ℕ} (h : k ≤ 1023) : twoTo k ≤ tooLarge := by
  calc twoTo k
    _ ≤ twoTo (53 + 970) := twoTo_le_twoTo h
    _ = twoTo 53 * halfPlace := twoTo_eq_mul_halfPlace rfl
    _ ≤ tooLarge := Nat.mul_le_mul_right halfPlace (by decide)

/-- At the last place a mantissa becomes too large by being rounded up to one more digit. -/
theorem le_nearest_mul_iff (hd : 0 < d) (h : n < 2 ^ 53 * (d * (2 * halfPlace))) :
    2 ^ 54 * halfPlace ≤ nearest n (d * (2 * halfPlace)) * (2 * halfPlace) ↔ (2 ^ 54 - 1) * (d * halfPlace) ≤ n := by
  have hplace : 0 < 2 * halfPlace := Nat.mul_pos two_pos halfPlace_pos
  have hscale := Nat.mul_pos hd hplace
  have hm := nearest_le hscale h
  have hodd := nearest_eq_succ_iff (k := 2 ^ 53 - 1) hscale rfl h
  have hfull : 2 ^ 54 * halfPlace ≤ nearest n (d * (2 * halfPlace)) * (2 * halfPlace) ↔
      2 ^ 53 ≤ nearest n (d * (2 * halfPlace)) := by
    have hsplit : 2 ^ 54 * halfPlace = 2 ^ 53 * (2 * halfPlace) := by omega
    rw [hsplit]
    exact Nat.mul_le_mul_right_iff hplace
  have htwice : d * (2 * halfPlace) = 2 * (d * halfPlace) := Nat.mul_left_comm d 2 halfPlace
  rw [htwice] at hodd hfull hm ⊢
  omega

/-- Below the last place no mantissa is too large, behind it every one with all its digits is. -/
theorem twoTo_le_nearest_iff {e : ℤ} (hd : 0 < d) (hupper : n * twoTo (-e).toNat < 2 ^ 53 * d * twoTo e.toNat)
    (hlower : -1074 < e → 2 ^ 52 * d * twoTo e.toNat ≤ n * twoTo (-e).toNat) :
    twoTo 1024 ≤ nearest (n * twoTo (-e).toNat) (d * twoTo e.toNat) * twoTo e.toNat ↔ tooLarge * d ≤ n := by
  have hscale : 0 < d * twoTo e.toNat := Nat.mul_pos hd (twoTo_pos _)
  have hhalf := halfPlace_pos
  rw [Nat.mul_assoc] at hupper hlower
  rw [twoTo_eq_mul_halfPlace (k := 1024) rfl, tooLarge, Nat.mul_assoc, Nat.mul_comm _ d]
  by_cases hbelow : e < 971
  · have hplace : twoTo e.toNat ≤ halfPlace := by
      rw [halfPlace_eq]
      exact twoTo_le_twoTo (by omega)
    have hn : n ≤ n * twoTo (-e).toNat := Nat.le_mul_of_pos_right n (twoTo_pos _)
    have hquotient := Nat.mul_le_mul_left d hplace
    have hmantissa := Nat.mul_le_mul (nearest_le hscale hupper) hplace
    have hless : 2 ^ 53 * halfPlace < twoTo 54 * halfPlace := Nat.mul_lt_mul_of_pos_right (by decide) hhalf
    have hmore : 2 ^ 53 * (d * halfPlace) < (2 ^ 54 - 1) * (d * halfPlace) :=
      Nat.mul_lt_mul_of_pos_right (by decide) (Nat.mul_pos hd hhalf)
    exact iff_of_false (by omega) (by omega)
  · have hone : twoTo (-e).toNat = 1 := by rw [Int.toNat_of_nonpos (by omega)]
    have hlow := hlower (by omega)
    rw [hone, Nat.mul_one] at hupper hlow ⊢
    by_cases hlast : e = 971
    · have hplace : twoTo e.toNat = 2 * halfPlace := twoTo_eq_mul_halfPlace (l := 1) (by omega)
      rw [hplace] at hupper ⊢
      exact le_nearest_mul_iff hd hupper
    · have hplace : 4 * halfPlace ≤ twoTo e.toNat := by
        rw [twoTo_eq_mul_halfPlace (l := e.toNat - 970) (by omega)]
        exact Nat.mul_le_mul_right halfPlace (twoTo_le_twoTo (k := 2) (by omega))
      have hmantissa := Nat.mul_le_mul (le_nearest hscale hlow) hplace
      have hquotient := Nat.mul_le_mul_left d hplace
      rw [Nat.mul_left_comm] at hquotient
      refine iff_of_true ?_ (by omega)
      calc twoTo 54 * halfPlace
        _ = 2 ^ 52 * (4 * halfPlace) := Nat.mul_assoc (2 ^ 52) 4 halfPlace
        _ ≤ nearest n (d * twoTo e.toNat) * twoTo e.toNat := hmantissa

/-- A quotient has no rounded value exactly when it is not below the least integer that is too large. -/
theorem ofQuotient?_eq_none_iff (n : ℕ) (hd : 0 < d) : ofQuotient? n d = none ↔ tooLarge * d ≤ n := by
  have hnone : ofQuotient? n d = none ↔ twoTo 1024 ≤
      nearest (n * twoTo (-lastPlace n d).toNat) (d * twoTo (lastPlace n d).toNat) *
        twoTo (lastPlace n d).toNat := by
    unfold ofQuotient?
    dsimp only
    split
    · exact iff_of_true rfl ‹_›
    · exact iff_of_false (Option.some_ne_none _) ‹_›
  rw [hnone]
  by_cases hn : n = 0
  · have hzero : ∀ b, nearest 0 b = 0 := fun b => by simp [nearest]
    rw [hn, Nat.zero_mul, hzero, Nat.zero_mul]
    exact iff_of_false (Nat.not_le_of_gt (twoTo_pos 1024)) (Nat.not_le_of_gt (Nat.mul_pos tooLarge_pos hd))
  · exact twoTo_le_nearest_iff hd (lt_of_lastPlace n hd.ne') (le_of_lastPlace hn hd.ne')

end Accessibility.Binary64
