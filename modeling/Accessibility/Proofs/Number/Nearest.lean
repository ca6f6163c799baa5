import Accessibility.Proofs.Number.Rounding
import Mathlib.Algebra.Order.Archimedean.Real.Basic
import Mathlib.Algebra.Order.Floor.Semifield
import Mathlib.Data.Int.Log

/-! # Rounding real numbers

What a quotient is rounded to depends on nothing but its value. Rounding is therefore stated for real numbers here,
among which there are roots as well: it keeps the order, and it keeps every number of 53 digits. -/

namespace Accessibility.Binary64

/-! ## The nearest integer -/

variable {r s : ℝ} {k : ℤ}

/-- The integer nearest to `r`; of two, the even one. -/
noncomputable def nearestInteger (r : ℝ) : ℤ :=
  if 1 < 2 * Int.fract r ∨ (2 * Int.fract r = 1 ∧ ⌊r⌋ % 2 = 1) then ⌊r⌋ + 1 else ⌊r⌋

theorem nearestInteger_le (h : 2 * r < 2 * k + 1) : nearestInteger r ≤ k := by
  have hsplit := Int.floor_add_fract r
  unfold nearestInteger
  split
  · have htwice : 1 ≤ 2 * Int.fract r := by
      rename_i hup
      exact hup.elim le_of_lt fun htie => htie.1.ge
    have hlt : (⌊r⌋ : ℝ) < k := by linarith
    exact Int.add_one_le_iff.mpr (Int.cast_lt.mp hlt)
  · have hfract := Int.fract_nonneg r
    have hlt : (⌊r⌋ : ℝ) < k + 1 := by linarith
    exact Int.lt_add_one_iff.mp (by exact_mod_cast hlt)

theorem le_nearestInteger (h : 2 * k < 2 * r + 1) : k ≤ nearestInteger r := by
  have hsplit := Int.floor_add_fract r
  unfold nearestInteger
  split
  · have hfract := Int.fract_lt_one r
    have hlt : (k : ℝ) < ⌊r⌋ + 2 := by linarith
    have : k < ⌊r⌋ + 2 := by exact_mod_cast hlt
    omega
  · have htwice : 2 * Int.fract r ≤ 1 := by
      rename_i hdown
      exact not_lt.mp fun hlt => hdown (.inl hlt)
    have hlt : (k : ℝ) < ⌊r⌋ + 1 := by linarith
    exact Int.lt_add_one_iff.mp (by exact_mod_cast hlt)

theorem nearestInteger_intCast (k : ℤ) : nearestInteger k = k :=
  le_antisymm (nearestInteger_le (by linarith)) (le_nearestInteger (by linarith))

/-- A number that is rounded further up than another is not below the middle under its integer, and the other is not
above it. -/
theorem middle_of_nearestInteger_lt (h : nearestInteger s < nearestInteger r) :
    ∃ k : ℤ, 2 * k + 1 ≤ 2 * r ∧ 2 * s ≤ 2 * k + 1 := by
  refine ⟨nearestInteger s, not_lt.mp fun hlt => ?_, not_lt.mp fun hlt => ?_⟩
  · exact absurd (nearestInteger_le hlt) (not_le.mpr h)
  · have hcast : ((2 * (nearestInteger s + 1) : ℤ) : ℝ) < 2 * s + 1 := by
      push_cast
      linarith
    exact absurd (le_nearestInteger (by exact_mod_cast hcast)) (Int.lt_succ _).not_ge

theorem nearestInteger_le_add_half (r : ℝ) : (nearestInteger r : ℝ) ≤ r + 1 / 2 := by
  refine not_lt.mp fun hlt => ?_
  have hcast : 2 * r < 2 * ((nearestInteger r - 1 : ℤ) : ℝ) + 1 := by
    push_cast
    linarith
  have := nearestInteger_le hcast
  omega

theorem sub_half_le_nearestInteger (r : ℝ) : r - 1 / 2 ≤ nearestInteger r := by
  refine not_lt.mp fun hlt => ?_
  have hcast : 2 * ((nearestInteger r + 1 : ℤ) : ℝ) < 2 * r + 1 := by
    push_cast
    linarith
  have := le_nearestInteger hcast
  omega

theorem abs_nearestInteger_sub_le (r : ℝ) (k : ℤ) : |nearestInteger r - r| ≤ |k - r| := by
  have hup := nearestInteger_le_add_half r
  have hdown := sub_half_le_nearestInteger r
  rcases lt_trichotomy k (nearestInteger r) with hlt | rfl | hgt
  · have hmiddle : 2 * (k : ℝ) + 1 ≤ 2 * r := not_lt.mp fun h => absurd (nearestInteger_le h) (not_le.mpr hlt)
    have hcast : (k : ℝ) < nearestInteger r := Int.cast_lt.mpr hlt
    rw [abs_of_nonpos (a := k - r) (by linarith), abs_le]
    constructor <;> linarith
  · exact le_rfl
  · have hmiddle : 2 * r + 1 ≤ 2 * (k : ℝ) := not_lt.mp fun h => absurd (le_nearestInteger h) (not_le.mpr hgt)
    have hcast : (nearestInteger r : ℝ) < k := Int.cast_lt.mpr hgt
    rw [abs_of_nonneg (a := k - r) (by linarith), abs_le]
    constructor <;> linarith

/-! ## The last place -/

theorem two_zpow_eq_two_mul (e : ℤ) : (2 : ℝ) ^ e = 2 * 2 ^ (e - 1) := by
  rw [zpow_sub_one₀ two_ne_zero]
  ring

/-- The exponent of the last of the 53 digits of `r`. -/
noncomputable def place (r : ℝ) : ℤ :=
  max (Int.log 2 r - 52) (-1074)

theorem mul_two_zpow_add (t g : ℤ) (k : ℕ) : (t : ℝ) * 2 ^ (g + k) = (t * 2 ^ k : ℤ) * 2 ^ g := by
  rw [zpow_add₀ two_ne_zero, zpow_natCast]
  push_cast
  ring

theorem neg_le_place (r : ℝ) : -1074 ≤ place r :=
  le_max_right _ _

theorem lt_two_zpow_place (r : ℝ) : r < 2 ^ (53 + place r) := by
  have hlog : Int.log 2 r + 1 ≤ 53 + place r := by
    unfold place
    omega
  calc r < 2 ^ (Int.log 2 r + 1) := Int.lt_zpow_succ_log_self one_lt_two r
    _ ≤ 2 ^ (53 + place r) := zpow_le_zpow_right₀ one_le_two hlog

theorem two_zpow_place_le (hr : 0 < r) (h : -1074 < place r) : 2 ^ (52 + place r) ≤ r := by
  have hlog : 52 + place r = Int.log 2 r := by
    unfold place at h ⊢
    omega
  rw [hlog]
  exact Int.zpow_log_le_self one_lt_two hr

theorem place_le {e : ℤ} (hr : 0 < r) (he : -1074 ≤ e) (h : r < 2 ^ (53 + e)) : place r ≤ e := by
  have hlog := (Int.lt_zpow_iff_log_lt one_lt_two hr).mp h
  unfold place
  omega

theorem lt_place {e : ℤ} (h : 2 ^ (53 + e) ≤ r) : e < place r := by
  have hr : 0 < r := (zpow_pos two_pos _).trans_le h
  have hlog := (Int.zpow_le_iff_le_log one_lt_two hr).mp h
  unfold place
  omega

/-! ## Rounding -/

/-- The number of 53 digits nearest to `r`; of two, the even one. -/
noncomputable def rounded (r : ℝ) : ℝ :=
  nearestInteger (r / 2 ^ place r) * 2 ^ place r

@[simp]
theorem rounded_zero : rounded 0 = 0 := by
  have hzero : nearestInteger 0 = 0 := by exact_mod_cast nearestInteger_intCast 0
  simp [rounded, hzero]

theorem rounded_le_two_zpow (r : ℝ) : rounded r ≤ 2 ^ (53 + place r) := by
  have hpos : (0 : ℝ) < 2 ^ place r := zpow_pos two_pos _
  have hlt := lt_two_zpow_place r
  rw [zpow_add₀ two_ne_zero, zpow_ofNat] at hlt ⊢
  have hle : nearestInteger (r / 2 ^ place r) ≤ 2 ^ 53 := by
    refine nearestInteger_le ?_
    have hscaled := (div_lt_iff₀ hpos).mpr hlt
    push_cast
    linarith
  exact mul_le_mul_of_nonneg_right (by exact_mod_cast hle) hpos.le

theorem two_zpow_le_rounded (hr : 0 < r) (h : -1074 < place r) : 2 ^ (52 + place r) ≤ rounded r := by
  have hpos : (0 : ℝ) < 2 ^ place r := zpow_pos two_pos _
  have hle := two_zpow_place_le hr h
  rw [zpow_add₀ two_ne_zero, zpow_ofNat] at hle ⊢
  have hge : 2 ^ 52 ≤ nearestInteger (r / 2 ^ place r) := by
    refine le_nearestInteger ?_
    have hscaled := (le_div_iff₀ hpos).mpr hle
    push_cast
    linarith
  exact mul_le_mul_of_nonneg_right (by exact_mod_cast hge) hpos.le

/-- Every number of 53 digits is kept. -/
theorem rounded_of_number {m : ℕ} {e : ℤ} (hm : m < 2 ^ 53) (he : -1074 ≤ e) :
    rounded (m * 2 ^ e) = m * 2 ^ e := by
  rcases m.eq_zero_or_pos with rfl | hpos
  · simp
  have hvalue : (0 : ℝ) < m * 2 ^ e := mul_pos (Nat.cast_pos.mpr hpos) (zpow_pos two_pos e)
  have hle : place (m * 2 ^ e) ≤ e := by
    refine place_le hvalue he ?_
    rw [zpow_add₀ two_ne_zero, zpow_ofNat]
    exact mul_lt_mul_of_pos_right (by exact_mod_cast hm) (zpow_pos two_pos e)
  -- In units of its last place the number is an integer.
  obtain ⟨k, hk⟩ := Int.le.dest hle
  have hunits : (m : ℝ) * 2 ^ e = ((m * 2 ^ k : ℤ) : ℝ) * 2 ^ place (m * 2 ^ e) := by
    nth_rewrite 1 [← hk]
    exact mul_two_zpow_add m _ k
  unfold rounded
  have hone : (m : ℝ) * 2 ^ e / 2 ^ place (m * 2 ^ e) = ((m * 2 ^ k : ℤ) : ℝ) :=
    (div_eq_iff (zpow_pos two_pos _).ne').mpr hunits
  rw [hone, nearestInteger_intCast, ← hunits]

theorem rounded_natCast {m : ℕ} (hm : m < 2 ^ 53) : rounded m = m := by
  simpa using rounded_of_number (e := 0) hm (by decide)

/-- No number of 53 digits is nearer. -/
theorem abs_rounded_sub_le {m : ℕ} {e : ℤ} (hr : 0 ≤ r) (hm : m < 2 ^ 53) (he : -1074 ≤ e) :
    |rounded r - r| ≤ |m * 2 ^ e - r| := by
  rcases hr.eq_or_lt with rfl | hpos
  · rw [rounded_zero, sub_self, abs_zero]
    exact abs_nonneg _
  have hunit : (0 : ℝ) < 2 ^ place r := zpow_pos two_pos _
  have hmultiple : ∀ k : ℤ, |rounded r - r| ≤ |k * 2 ^ place r - r| := by
    intro k
    have hscaled : ∀ x : ℝ, |x * 2 ^ place r - r| = |x - r / 2 ^ place r| * 2 ^ place r := by
      intro x
      rw [← abs_of_pos hunit, ← abs_mul, sub_mul, abs_of_pos hunit, div_mul_cancel₀ _ hunit.ne']
    unfold rounded
    rw [hscaled, hscaled]
    exact mul_le_mul_of_nonneg_right (abs_nearestInteger_sub_le _ k) hunit.le
  rcases le_or_gt (place r) e with hle | hlt
  · obtain ⟨k, rfl⟩ := Int.le.dest hle
    have hunits := mul_two_zpow_add m (place r) k
    rw [Int.cast_natCast] at hunits
    rw [hunits]
    exact hmultiple _
  · -- The number is below all those with the last place of `r`, of which the least is up to `r`.
    have hleast : 2 ^ (52 + place r) ≤ r := two_zpow_place_le hpos (he.trans_lt hlt)
    have hbelow : (m : ℝ) * 2 ^ e ≤ 2 ^ (52 + place r) := by
      calc (m : ℝ) * 2 ^ e ≤ 2 ^ 53 * 2 ^ e :=
            mul_le_mul_of_nonneg_right (by exact_mod_cast hm.le) (zpow_pos two_pos e).le
        _ = 2 ^ (53 + e) := by rw [zpow_add₀ two_ne_zero, zpow_ofNat]
        _ ≤ 2 ^ (52 + place r) := zpow_le_zpow_right₀ one_le_two (by omega)
    have hnear := hmultiple ((2 ^ 52 : ℕ) : ℤ)
    rw [Int.cast_natCast, Nat.cast_pow, Nat.cast_ofNat] at hnear
    rw [zpow_add₀ two_ne_zero, zpow_ofNat] at hleast hbelow
    rw [abs_of_nonpos (sub_nonpos.mpr hleast)] at hnear
    rw [abs_of_nonpos (sub_nonpos.mpr (hbelow.trans hleast))]
    linarith

/-! ## The order -/

/-- The multiples of a power of two do not tell that `r` is above `s`: each of them up to `r` is up to `s` as well, and
each from `s` on is from `r` on as well. -/
structure Precedes (g : ℤ) (r s : ℝ) : Prop where
  le_right : ∀ t : ℤ, t * 2 ^ g ≤ r → t * 2 ^ g ≤ s
  left_le : ∀ t : ℤ, s ≤ t * 2 ^ g → r ≤ t * 2 ^ g

namespace Precedes

variable {g e : ℤ}

theorem of_le (h : r ≤ s) : Precedes g r s where
  le_right _ ht := ht.trans h
  left_le _ ht := h.trans ht

theorem coarsen (h : Precedes g r s) (hge : g ≤ e) : Precedes e r s := by
  obtain ⟨k, rfl⟩ := Int.le.dest hge
  constructor <;> intro t <;> rw [mul_two_zpow_add]
  · exact h.le_right _
  · exact h.left_le _

theorem nearestInteger_le (h : Precedes (e - 1) r s) : nearestInteger (r / 2 ^ e) ≤ nearestInteger (s / 2 ^ e) := by
  refine not_lt.mp fun hlt => ?_
  obtain ⟨k, hr, hs⟩ := middle_of_nearestInteger_lt hlt
  have hpos : (0 : ℝ) < 2 ^ (e - 1) := zpow_pos two_pos _
  have htwice : ∀ x : ℝ, 2 * (x / 2 ^ e) = x / 2 ^ (e - 1) := by
    intro x
    rw [two_zpow_eq_two_mul e, ← mul_div_assoc, mul_div_mul_left _ _ two_ne_zero]
  -- Both are the middle itself, which is rounded in one way only.
  rw [htwice, le_div_iff₀ hpos] at hr
  rw [htwice, div_le_iff₀ hpos] at hs
  have hrs : r = s := by
    have hright := h.le_right (2 * k + 1) (by exact_mod_cast hr)
    have hleft := h.left_le (2 * k + 1) (by exact_mod_cast hs)
    push_cast at hright hleft
    linarith
  exact absurd (hrs ▸ hlt) (lt_irrefl _)

/-- Rounding keeps the order, and it needs no more of it than what the multiples of a power of two tell that is below
the last place: the middles between two neighbours are such multiples. -/
theorem rounded_le (h : Precedes g r s) (hr : 0 < r) (hs : 0 < s) (hg : g < place r) : rounded r ≤ rounded s := by
  rcases lt_trichotomy (place r) (place s) with hlt | heq | hgt
  · calc rounded r ≤ 2 ^ (53 + place r) := rounded_le_two_zpow r
      _ ≤ 2 ^ (52 + place s) := zpow_le_zpow_right₀ one_le_two (by omega)
      _ ≤ rounded s := two_zpow_le_rounded hs ((neg_le_place r).trans_lt hlt)
  · have hmiddle : Precedes (place r - 1) r s := h.coarsen (by omega)
    unfold rounded
    rw [← heq]
    exact mul_le_mul_of_nonneg_right (Int.cast_le.mpr hmiddle.nearestInteger_le) (zpow_pos two_pos _).le
  · -- The least number with the last place of `r` is up to `r`, but not up to `s`.
    have hleast : Precedes (52 + place r) r s := h.coarsen (by omega)
    have hle := hleast.le_right 1 (by simpa using two_zpow_place_le hr ((neg_le_place s).trans_lt hgt))
    have hge : s < 2 ^ (52 + place r) := (lt_two_zpow_place s).trans_le (zpow_le_zpow_right₀ one_le_two (by omega))
    rw [Int.cast_one, one_mul] at hle
    exact absurd hge (not_lt.mpr hle)

end Precedes

theorem rounded_nonneg (hr : 0 ≤ r) : 0 ≤ rounded r := by
  have hscaled : 0 ≤ r / 2 ^ place r := div_nonneg hr (zpow_pos two_pos _).le
  have hle : 0 ≤ nearestInteger (r / 2 ^ place r) := le_nearestInteger (by push_cast; linarith)
  exact mul_nonneg (Int.cast_nonneg hle) (zpow_pos two_pos _).le

theorem rounded_le_rounded (hr : 0 ≤ r) (h : r ≤ s) : rounded r ≤ rounded s := by
  rcases hr.eq_or_lt with rfl | hpos
  · rw [rounded_zero]
    exact rounded_nonneg h
  · exact (Precedes.of_le (g := place r - 1) h).rounded_le hpos (hpos.trans_le h) (by omega)

/-- Rounding moves a number up by half of its last place at most. -/
theorem rounded_le_add {e : ℤ} (hr : 0 ≤ r) (he : -1074 ≤ e) (h : r < 2 ^ (53 + e)) :
    rounded r ≤ r + 2 ^ (e - 1) := by
  have hhalf := two_zpow_eq_two_mul e
  rcases hr.eq_or_lt with rfl | hpos
  · simpa using (zpow_pos two_pos (e - 1)).le
  have hplace : (2 : ℝ) ^ place r ≤ 2 ^ e := zpow_le_zpow_right₀ one_le_two (place_le hpos he h)
  have hunit : (0 : ℝ) < 2 ^ place r := zpow_pos two_pos _
  calc rounded r ≤ (r / 2 ^ place r + 1 / 2) * 2 ^ place r :=
        mul_le_mul_of_nonneg_right (nearestInteger_le_add_half _) hunit.le
    _ = r + 2 ^ place r / 2 := by
      rw [add_mul, div_mul_cancel₀ _ hunit.ne']
      ring
    _ ≤ r + 2 ^ (e - 1) := by linarith

/-! ## Quotients -/

variable {n d : ℕ}

theorem nearest_eq_nearestInteger (n : ℕ) (hd : 0 < d) : (nearest n d : ℤ) = nearestInteger (n / d) := by
  have hpos : (0 : ℝ) < d := Nat.cast_pos.mpr hd
  have hfloor : ⌊(n / d : ℝ)⌋ = (n / d : ℕ) := by
    rw [← Int.natCast_floor_eq_floor (by positivity), Nat.floor_div_eq_div]
  have hlt : 1 < 2 * Int.fract (n / d : ℝ) ↔ d < 2 * (n % d) := by
    rw [Int.fract_div_natCast_eq_div_natCast_mod, ← mul_div_assoc, one_lt_div hpos]
    exact_mod_cast Iff.rfl
  have heq : 2 * Int.fract (n / d : ℝ) = 1 ↔ 2 * (n % d) = d := by
    rw [Int.fract_div_natCast_eq_div_natCast_mod, ← mul_div_assoc, div_eq_one_iff_eq hpos.ne']
    exact_mod_cast Iff.rfl
  have hodd : ((n / d : ℕ) : ℤ) % 2 = 1 ↔ n / d % 2 = 1 := by omega
  unfold nearest nearestInteger
  rw [hfloor]
  simp only [hlt, heq, hodd]
  split <;> rfl

theorem lastPlace_eq_place (hn : n ≠ 0) (hd : d ≠ 0) : lastPlace n d = place (n / d) := by
  have hpos : (0 : ℝ) < d := Nat.cast_pos.mpr (Nat.pos_of_ne_zero hd)
  have hquotient : (0 : ℝ) < n / d := div_pos (Nat.cast_pos.mpr (Nat.pos_of_ne_zero hn)) hpos
  obtain ⟨hlow, hhigh⟩ := floorLog_bounds hn hd
  have hlowR := (Rat.cast_le (K := ℝ)).mpr hlow
  have hhighR := (Rat.cast_lt (K := ℝ)).mpr hhigh
  push_cast at hlowR hhighR
  have hle : floorLog n d ≤ Int.log 2 (n / d : ℝ) := by
    rw [← Int.zpow_le_iff_le_log one_lt_two hquotient, le_div_iff₀' hpos]
    exact hlowR
  have hge : Int.log 2 (n / d : ℝ) < floorLog n d + 1 := by
    rw [← Int.lt_zpow_iff_log_lt one_lt_two hquotient, div_lt_iff₀' hpos]
    exact hhighR
  unfold lastPlace place
  omega

theorem cast_twoTo (k : ℕ) : ((twoTo k : ℕ) : ℝ) = 2 ^ k :=
  Nat.cast_pow 2 k

theorem twoTo_div_twoTo (e : ℤ) : ((twoTo e.toNat : ℕ) : ℝ) / (twoTo (-e).toNat : ℕ) = 2 ^ e := by
  have hpos : (0 : ℝ) < (twoTo (-e).toNat : ℕ) := Nat.cast_pos.mpr (twoTo_pos _)
  rw [div_eq_iff hpos.ne']
  have hpower := congrArg (Rat.cast : ℚ → ℝ) (twoTo_toNat e)
  push_cast at hpower ⊢
  exact hpower

theorem scaled_div_scaled (n d : ℕ) (e : ℤ) :
    ((n * twoTo (-e).toNat : ℕ) : ℝ) / (d * twoTo e.toNat : ℕ) = n / d / 2 ^ e := by
  rw [← twoTo_div_twoTo e, div_div_eq_mul_div, div_mul_eq_mul_div, div_div]
  push_cast
  rfl

namespace Magnitude

noncomputable def value (x : Magnitude) : ℝ :=
  x.mantissa * 2 ^ x.exponent

theorem value_eq_div (x : Magnitude) :
    x.value = (x.mantissa * twoTo x.exponent.toNat : ℕ) / (twoTo (-x.exponent).toNat : ℕ) := by
  unfold value
  rw [← twoTo_div_twoTo, Nat.cast_mul, mul_div_assoc]

theorem floor_eq (x : Magnitude) : x.floor = ⌊x.value⌋₊ := by
  rw [value_eq_div, Nat.floor_div_eq_div]
  rfl

end Magnitude

variable {x : Magnitude}

theorem ofQuotient?_eq_some (h : ofQuotient? n d = some x) :
    x = ⟨nearest (n * twoTo (-lastPlace n d).toNat) (d * twoTo (lastPlace n d).toNat), lastPlace n d⟩ ∧
      x.mantissa * twoTo x.exponent.toNat < twoTo 1024 := by
  unfold ofQuotient? at h
  dsimp only at h
  split at h
  · cases h
  · cases h
    exact ⟨rfl, not_le.mp ‹_›⟩

/-- A quotient is rounded as the real number that it is. -/
theorem value_of_ofQuotient? (hd : 0 < d) (h : ofQuotient? n d = some x) : x.value = rounded (n / d) := by
  obtain ⟨rfl, -⟩ := ofQuotient?_eq_some h
  unfold Magnitude.value
  dsimp only
  rcases n.eq_zero_or_pos with rfl | hn
  · have hzero : ∀ b, nearest 0 b = 0 := fun b => by simp [nearest]
    rw [Nat.zero_mul, hzero, Nat.cast_zero, zero_mul, zero_div, rounded_zero]
  have hnearest := nearest_eq_nearestInteger (n * twoTo (-lastPlace n d).toNat)
    (Nat.mul_pos hd (twoTo_pos (lastPlace n d).toNat))
  rw [scaled_div_scaled, lastPlace_eq_place hn.ne' hd.ne'] at hnearest
  unfold rounded
  rw [lastPlace_eq_place hn.ne' hd.ne', ← hnearest, Int.cast_natCast]

/-- No number of 53 digits is nearer to a quotient than its rounded value. -/
theorem ofQuotient?_nearest {m : ℕ} {e : ℤ} (hd : 0 < d) (h : ofQuotient? n d = some x) (hm : m < 2 ^ 53)
    (he : -1074 ≤ e) : |x.value - n / d| ≤ |(m : ℝ) * 2 ^ e - n / d| := by
  rw [value_of_ofQuotient? hd h]
  exact abs_rounded_sub_le (div_nonneg (Nat.cast_nonneg n) (Nat.cast_nonneg d)) hm he

theorem value_lt_of_ofQuotient? (h : ofQuotient? n d = some x) : x.value < (twoTo 1024 : ℕ) := by
  obtain ⟨-, hlt⟩ := ofQuotient?_eq_some h
  have hone : (1 : ℝ) ≤ (twoTo (-x.exponent).toNat : ℕ) := Nat.one_le_cast.mpr (twoTo_pos _)
  rw [Magnitude.value_eq_div]
  calc ((x.mantissa * twoTo x.exponent.toNat : ℕ) : ℝ) / (twoTo (-x.exponent).toNat : ℕ)
    _ ≤ (x.mantissa * twoTo x.exponent.toNat : ℕ) := div_le_self (Nat.cast_nonneg _) hone
    _ < (twoTo 1024 : ℕ) := Nat.cast_lt.mpr hlt

/-- The quotients from the middle on between the largest number and the next power of two are too large. -/
theorem cast_tooLarge : ((tooLarge : ℕ) : ℝ) = 2 ^ 1024 - 2 ^ 970 := by
  have hpower : (2 : ℝ) ^ 1024 = 2 ^ 54 * 2 ^ 970 := pow_add 2 54 970
  have hdigits : ((2 ^ 54 - 1 : ℕ) : ℝ) = 2 ^ 54 - 1 := by norm_num
  rw [tooLarge, halfPlace_eq, Nat.cast_mul, hdigits, cast_twoTo, sub_one_mul, hpower]

end Accessibility.Binary64
