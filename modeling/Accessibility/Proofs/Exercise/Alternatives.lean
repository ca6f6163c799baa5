import Accessibility.Exercise.Verify
import Accessibility.Proofs.Audit.Ledger
import Accessibility.Proofs.Markup.Quoted

/-! # The exercise on text alternatives and the audit of images

The exercise looks at every alternative of the page and the audit at those inside image tags. The exercise asks for
more, so that the audit of a page that passed it can find fault with nothing but images that have no alternative. -/

namespace Accessibility

namespace Exercise

theorem ne_nil_of_isMeaningful {alternative : Text} (h : isMeaningful alternative = true) : alternative ≠ [] := by
  rintro rfl
  exact absurd h (by decide)

/-- The exercise is passed when there are alternatives and every one is meaningful. -/
theorem altText_passed_iff (page : Text) :
    (altText page).passed = true ↔ alternatives page ≠ [] ∧ ∀ t ∈ alternatives page, isMeaningful t = true := by
  unfold altText
  dsimp only
  generalize alternatives page = alternatives
  by_cases hempty : alternatives.contains [] = true
  · have hnot : ¬∀ t ∈ alternatives, isMeaningful t = true := fun h =>
      ne_nil_of_isMeaningful (h [] (List.contains_iff_mem.mp hempty)) rfl
    rw [if_pos hempty]
    simp only [hnot, and_false, Bool.false_eq_true]
  · rw [if_neg hempty, ← List.length_filter_eq_length_iff]
    have hle := List.length_filter_le isMeaningful alternatives
    cases alternatives with
    | nil => simp
    | cons first behind =>
        dsimp only
        by_cases hfewer : ((first :: behind).filter isMeaningful).length < (first :: behind).length
        · rw [if_pos hfewer]
          simp only [Bool.false_eq_true, Nat.ne_of_lt hfewer, and_false]
        · rw [if_neg hfewer]
          simp only [ne_eq, reduceCtorEq, not_false_eq_true, true_and, true_iff]
          exact Nat.le_antisymm hle (Nat.le_of_not_lt hfewer)

end Exercise

namespace Audit.Images

/-- The audit finds nothing wrong with an image that has a meaningful alternative. -/
theorem found_of_isMeaningful {image alternative : Text} (h : Attribute.value? "alt".toList image = some alternative)
    (hmeaningful : Exercise.isMeaningful alternative = true) (number : Nat) : found (image, number) = [] := by
  rw [Exercise.isMeaningful, Bool.and_eq_true, decide_eq_true_iff, Bool.not_eq_true'] at hmeaningful
  obtain ⟨hlength, hredundant⟩ := hmeaningful
  have hempty : alternative.isEmpty = false := by
    cases alternative with
    | nil => simp at hlength
    | cons c rest => rfl
  have hshort : ¬alternative.length < leastLength := by
    simp only [Exercise.alternativeLength, leastLength] at hlength ⊢
    omega
  simp only [found, h, hempty, hshort, hredundant, Bool.false_eq_true, if_false]

theorem rule_of_mem_issues {page : Text}
    (h : ∀ tag ∈ Tag.findAll .img page, ∀ alternative, Attribute.value? "alt".toList tag.raw = some alternative →
      Exercise.isMeaningful alternative = true) {i : Issue} (hi : i ∈ issues page) : i.rule = .altMissing := by
  obtain ⟨⟨image, number⟩, hmem, hfound⟩ := List.mem_flatMap.mp hi
  obtain ⟨tag, htag, rfl⟩ := List.mem_map.mp (List.fst_mem_of_mem_zipIdx hmem)
  cases hvalue : Attribute.value? "alt".toList tag.raw with
  | some alternative =>
      rw [found_of_isMeaningful hvalue (h tag htag alternative hvalue)] at hfound
      exact absurd hfound List.not_mem_nil
  | none =>
      simp only [found, hvalue, List.mem_singleton] at hfound
      rw [hfound]
      rfl

end Audit.Images

namespace Exercise

/-- Who passes the exercise on text alternatives has a page of which the audit of images says nothing but that some have
no alternative. An equals sign in an alternative may hide another one from the exercise, so none may hold one. -/
theorem altText_passed_audit {page : Text} (hvalues : ∀ t ∈ alternatives page, '=' ∉ t) {v : Verdict}
    (h : verify page (.ofValue (.text "alt-text".toList)) = .ok v) (hpassed : v.passed = true) :
    ∀ i ∈ (Audit.Images.report page).issues, i.rule = .altMissing := by
  obtain rfl : altText page = v := Except.ok.inj h
  obtain ⟨-, hmeaningful⟩ := (altText_passed_iff page).mp hpassed
  have hname : ∀ c ∈ "alt".toList, Text.isPlain c = true := List.all_eq_true.mp (by decide)
  intro i hi
  rw [Audit.Images.report_eq] at hi
  refine Audit.Images.rule_of_mem_issues (fun tag htag alternative hvalue => ?_) hi
  exact hmeaningful alternative (Attribute.mem_values_of_tag hname (by decide) htag hvalue hvalues)

/-- The second image has no alternative, which the exercise does not see and the audit does. -/
theorem altText_passed_audit_second_image :
    ∃ page, page = "<img alt='Low tides'><img>".toList ∧ (altText page).passed = true ∧
      (∀ i ∈ (Audit.Images.report page).issues, i.rule = .altMissing) ∧
      (Audit.Images.report page).issues.length = 1 := by
  have hvalues : ∀ t ∈ alternatives "<img alt='Low tides'><img>".toList, '=' ∉ t := by
    decide
  have hpassed : (altText "<img alt='Low tides'><img>".toList).passed = true := by
    decide
  exact ⟨_, rfl, hpassed, altText_passed_audit hvalues rfl hpassed, by decide⟩

end Exercise

end Accessibility
