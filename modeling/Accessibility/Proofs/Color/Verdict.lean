import Accessibility.Color.Contrast

/-! # Verdicts on the contrast of two colours

A contrast is judged twice: once by its tier, with one answer for ordinary text, and once at two levels for text of two
sizes. The two judgements have thresholds of their own. As both see the same rounded ratio, they never contradict each
other, and neither depends on which of two colours is the text and which the background. -/

namespace Accessibility

/-! ## Tiers -/

namespace Tier

variable {n : Nat}

theorem ofHundredths_eq_aaa_iff : ofHundredths n = aaa ↔ aaaThreshold ≤ n := by
  unfold ofHundredths
  split
  · simp [*]
  · split
    · simp [*]
    · split <;> simp [*]

/-- The two highest tiers together begin where the second does. -/
theorem ofHundredths_reaches_aa_iff : ofHundredths n = aaa ∨ ofHundredths n = aa ↔ aaThreshold ≤ n := by
  have horder : aaThreshold ≤ aaaThreshold := by decide
  unfold ofHundredths
  split
  · rename_i haaa
    simp [Nat.le_trans horder haaa]
  · split
    · simp [*]
    · split <;> simp [*]

theorem ofHundredths_eq_fail_iff : ofHundredths n = fail ↔ n < aThreshold := by
  have hlow : aThreshold ≤ aaThreshold ∧ aaThreshold ≤ aaaThreshold := by decide
  unfold ofHundredths
  split
  · simp only [reduceCtorEq, false_iff]
    omega
  · split
    · simp only [reduceCtorEq, false_iff]
      omega
    · split <;> simp only [reduceCtorEq, false_iff, true_iff] <;> omega

end Tier

/-! ## Two judgements of one ratio -/

/-- The judgement of a ratio by its tier. -/
def Contrast.ofRatio (r : Ratio) : Contrast where
  ratio := r
  tier := .ofHundredths r.hundredths
  passes := Tier.aaThreshold ≤ r.hundredths

/-- The judgement of a ratio at both levels and for both sizes. -/
def Compliance.ofRatio (r : Ratio) : Compliance where
  ratio := r
  aaNormal := 450 ≤ r.hundredths
  aaLarge := 300 ≤ r.hundredths
  aaaNormal := 700 ≤ r.hundredths
  aaaLarge := 450 ≤ r.hundredths

theorem Contrast.compute_eq (foreground background : Value) :
    compute foreground background = (ratio? foreground background).map fun x => ofRatio (.round x) := rfl

theorem Compliance.check_eq (foreground background : Value) :
    check foreground background = (Contrast.ratio? foreground background).map fun x => ofRatio (.round x) := rfl

/-- The two judgements say the same: the tier reaches as high as the levels that are met, and whatever suffices for
more suffices for less. -/
structure Coherent (c : Contrast) (k : Compliance) : Prop where
  ratio_eq : c.ratio = k.ratio
  passes_eq : c.passes = k.aaNormal
  aaaLarge_eq : k.aaaLarge = k.aaNormal
  aaa_iff : c.tier = .aaa ↔ k.aaaNormal = true
  aa_iff : c.tier = .aaa ∨ c.tier = .aa ↔ c.passes = true
  fail_iff : c.tier = .fail ↔ k.aaLarge = false
  aaNormal_of_aaaNormal : k.aaaNormal = true → k.aaNormal = true
  aaLarge_of_aaNormal : k.aaNormal = true → k.aaLarge = true

theorem coherent_ofRatio (r : Ratio) : Coherent (.ofRatio r) (.ofRatio r) where
  ratio_eq := rfl
  passes_eq := rfl
  aaaLarge_eq := rfl
  aaa_iff := Tier.ofHundredths_eq_aaa_iff.trans decide_eq_true_iff.symm
  aa_iff := Tier.ofHundredths_reaches_aa_iff.trans decide_eq_true_iff.symm
  fail_iff := Tier.ofHundredths_eq_fail_iff.trans (Nat.not_le.symm.trans decide_eq_false_iff_not.symm)
  aaNormal_of_aaaNormal := by
    intro h
    exact decide_eq_true (Nat.le_trans (by decide) (of_decide_eq_true h))
  aaLarge_of_aaNormal := by
    intro h
    exact decide_eq_true (Nat.le_trans (by decide) (of_decide_eq_true h))

/-! ## Text and background -/

namespace Color

/-- The larger and the smaller of two numbers do not depend on which of them comes first. -/
theorem max_comm_and_min_comm (x y : UInt64) : max x y = max y x ∧ min x y = min y x := by
  change (if x ≤ y then y else x) = (if y ≤ x then x else y) ∧ (if x ≤ y then x else y) = if y ≤ x then y else x
  by_cases hxy : x ≤ y
  · by_cases hyx : y ≤ x
    · obtain rfl := UInt64.le_antisymm hxy hyx
      exact ⟨rfl, rfl⟩
    · rw [if_pos hxy, if_pos hxy, if_neg hyx, if_neg hyx]
      exact ⟨rfl, rfl⟩
  · have hyx := (UInt64.le_total x y).resolve_left hxy
    rw [if_neg hxy, if_neg hxy, if_pos hyx, if_pos hyx]
    exact ⟨rfl, rfl⟩

theorem contrast_comm (a b : Color) : contrast a b = contrast b a := by
  obtain ⟨hmax, hmin⟩ := max_comm_and_min_comm a.luminance.toBits b.luminance.toBits
  simp only [contrast, hmax, hmin]

end Color

namespace Contrast

theorem ratio?_of_parse {foreground background : Value} {text ground : Option Color}
    (htext : Color.parse foreground = .ok text) (hground : Color.parse background = .ok ground) :
    ratio? foreground background = .ok (Color.contrast (text.getD .black) (ground.getD .white)) := by
  rw [ratio?, htext, hground]
  rfl

theorem exists_compute {foreground background : Value} {text ground : Option Color}
    (htext : Color.parse foreground = .ok text) (hground : Color.parse background = .ok ground) :
    ∃ c, compute foreground background = .ok c := by
  rw [compute_eq, ratio?_of_parse htext hground]
  exact ⟨_, rfl⟩

/-- Defaults stand in only for what is not understood, and they differ. Where both colours are understood, they may
change places. -/
theorem ratio?_swap {foreground background : Value} {text ground : Color}
    (htext : Color.parse foreground = .ok (some text)) (hground : Color.parse background = .ok (some ground)) :
    ratio? background foreground = ratio? foreground background := by
  rw [ratio?_of_parse htext hground, ratio?_of_parse hground htext, Color.contrast_comm]
  rfl

/-- The two judgements are made of the same pairs of values and fail for the same fault on all others. They are
coherent wherever they are made, and where both colours are understood, they are made and stay as they are when the two
change places. -/
theorem judged_coherently (foreground background : Value) :
    ((∃ c k, compute foreground background = .ok c ∧ Compliance.check foreground background = .ok k ∧ Coherent c k) ∨
      ∃ fault, compute foreground background = .error fault ∧ Compliance.check foreground background = .error fault) ∧
    ∀ text ground, Color.parse foreground = .ok (some text) → Color.parse background = .ok (some ground) →
      (∃ c, compute foreground background = .ok c ∧ compute background foreground = .ok c) ∧
      ∃ k, Compliance.check foreground background = .ok k ∧ Compliance.check background foreground = .ok k := by
  simp only [compute_eq, Compliance.check_eq]
  constructor
  · cases ratio? foreground background with
    | error fault => exact .inr ⟨fault, rfl, rfl⟩
    | ok x => exact .inl ⟨_, _, rfl, rfl, coherent_ofRatio (.round x)⟩
  · intro text ground htext hground
    rw [ratio?_swap htext hground, ratio?_of_parse htext hground]
    exact ⟨⟨_, rfl, rfl⟩, _, rfl, rfl⟩

/-- A name in capitals and three digits between blanks. -/
theorem judged_coherently_grey_on_white :
    ∃ c k, compute (.text "GREY".toList) (.text " #FFF\n".toList) = .ok c ∧
      Compliance.check (.text "GREY".toList) (.text " #FFF\n".toList) = .ok k ∧ Coherent c k ∧
      compute (.text " #FFF\n".toList) (.text "GREY".toList) = .ok c ∧
      Compliance.check (.text " #FFF\n".toList) (.text "GREY".toList) = .ok k := by
  have htext : Color.parse (.text "GREY".toList) = .ok (some ⟨128, 128, 128⟩) := by rfl
  have hground : Color.parse (.text " #FFF\n".toList) = .ok (some .white) := by rfl
  obtain ⟨hjudged, hswap⟩ := judged_coherently (.text "GREY".toList) (.text " #FFF\n".toList)
  obtain ⟨⟨c, hc, hc'⟩, k, hk, hk'⟩ := hswap _ _ htext hground
  refine ⟨c, k, hc, hk, ?_, hc', hk'⟩
  rcases hjudged with ⟨c₁, k₁, hc₁, hk₁, hcoherent⟩ | ⟨fault, hfault, -⟩
  · obtain rfl : c₁ = c := Except.ok.inj (hc₁.symm.trans hc)
    obtain rfl : k₁ = k := Except.ok.inj (hk₁.symm.trans hk)
    exact hcoherent
  · rw [hc] at hfault
    contradiction

end Contrast

end Accessibility
