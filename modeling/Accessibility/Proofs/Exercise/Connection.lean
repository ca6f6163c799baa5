import Accessibility.Exercise.Verify
import Accessibility.Proofs.Markup.AttributeScan

/-! # Which connections the exercise on form labels has seen

The exercise asks whether the two attributes are given a value, quoted or not, and then compares the quoted values. A
page that is passed has a connection to show only where a quoted value is found; where none is, all of them match. -/

namespace Accessibility.Exercise

theorem all_contains_iff {targets ids : List Text} : targets.all ids.contains = true ↔ ∀ t ∈ targets, t ∈ ids := by
  simp only [List.all_eq_true, List.contains_iff_mem]

theorem formLabel_passed_iff (page : Text) :
    (formLabel page).passed = true ↔
      Attribute.isGiven "for".toList page = true ∧ Attribute.isGiven "id".toList page = true ∧
        ∀ target ∈ Attribute.values "for".toList page, target ∈ Attribute.values "id".toList page := by
  rw [← all_contains_iff]
  unfold formLabel
  dsimp only
  cases Attribute.isGiven "for".toList page with
  | false => simp
  | true =>
      cases Attribute.isGiven "id".toList page with
      | false => simp
      | true => cases (Attribute.values "for".toList page).all (Attribute.values "id".toList page).contains <;> simp

theorem formLabel_details {page : Text} (h : (formLabel page).passed = true) {count : Nat}
    (hcount : (Attribute.values "for".toList page).length = count) :
    (formLabel page).details = [s!"Found {count} properly labeled form fields"] := by
  subst hcount
  obtain ⟨hfor, hid, hmatch⟩ := (formLabel_passed_iff page).mp h
  have hall := all_contains_iff.mpr hmatch
  simp only [formLabel, hfor, hid, hall, Bool.and_self, Bool.not_true, Bool.false_eq_true, if_false, if_true]

/-- Every target of a page that passes is an identifier of it, and their number is reported. There is such a target
exactly where the page has a quoted attribute for one. -/
theorem formLabel_connects_iff (page : Text) :
    ∃ v, verify page (.ofValue (.text "form-label".toList)) = .ok v ∧
      (v.passed = true ↔ Attribute.isGiven "for".toList page = true ∧ Attribute.isGiven "id".toList page = true ∧
        ∀ target ∈ Attribute.values "for".toList page, target ∈ Attribute.values "id".toList page) ∧
      (v.passed = true → ∃ count, v.details = [s!"Found {count} properly labeled form fields"] ∧
        count = (Attribute.values "for".toList page).length ∧
        ((∃ p quote q, Attribute.Head "for".toList page p quote q) ↔
          1 ≤ count ∧ ∃ target ∈ Attribute.values "for".toList page, target ∈ Attribute.values "id".toList page)) := by
  refine ⟨formLabel page, rfl, formLabel_passed_iff page, fun hpassed => ⟨_, formLabel_details hpassed rfl, rfl, ?_⟩⟩
  obtain ⟨-, -, hmatch⟩ := (formLabel_passed_iff page).mp hpassed
  rw [← Attribute.values_ne_nil_iff]
  constructor
  · intro hne
    obtain ⟨target, htarget⟩ := List.exists_mem_of_ne_nil _ hne
    exact ⟨List.length_pos_of_ne_nil hne, target, htarget, hmatch target htarget⟩
  · rintro ⟨-, target, htarget, -⟩
    exact List.ne_nil_of_mem htarget

/-- Without quotes a label is passed that is for another input than the one there is. -/
theorem formLabel_unquoted :
    ∃ page v, page = "<label for=mail>Email</label><input id=email>".toList ∧
      verify page (.ofValue (.text "form-label".toList)) = .ok v ∧ v.passed = true ∧
      v.details = ["Found 0 properly labeled form fields"] ∧
      ¬∃ target ∈ Attribute.values "for".toList page, target ∈ Attribute.values "id".toList page := by
  exact ⟨_, _, rfl, rfl, by decide +kernel, by decide +kernel, by decide +kernel⟩

end Accessibility.Exercise
