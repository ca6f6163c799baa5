import Accessibility.Exercise.Verify
import Accessibility.Proofs.Audit.Ledger
import Accessibility.Proofs.Markup.Heading

/-! # The exercise and the audit of headings

The exercise reads an outline off the opening tags, the audit reads one off the elements with plain text. The second
is a part of the first; where both have the same length they are the same, and then both judge it alike. -/

namespace Accessibility

open List

namespace Exercise

/-! ## The verdict of the exercise -/

theorem heading_passed_iff (page : Text) :
    (heading page).passed = true ↔ (levels page).count 1 = 1 ∧ skips (levels page) = false := by
  unfold heading
  dsimp only
  by_cases hmany : 1 < (levels page).count 1
  · rw [if_pos hmany]
    simp only [Bool.false_eq_true, false_iff, not_and]
    omega
  by_cases hnone : (levels page).count 1 = 0
  · rw [if_neg hmany, if_pos hnone]
    simp [hnone]
  rw [if_neg hmany, if_neg hnone]
  have hone : (levels page).count 1 = 1 := by omega
  by_cases hskips : skips (levels page) = true
  · simp [hskips]
  · simp [hskips, hone]

theorem heading_announcement {page : Text} (h : (heading page).passed = true) :
    (heading page).announcement =
      some ("Heading structure: " ++ ", ".intercalate ((headings page).map (outlineEntry page))) := by
  obtain ⟨hone, hskips⟩ := (heading_passed_iff page).mp h
  simp [heading, hone, hskips]

/-! ## Two outlines of one page -/

/-- The levels that the audit reads off the elements. -/
def elementLevels (page : Text) : List Nat :=
  (Element.findAll .heading page).map fun e => e.level?.getD 0

theorem map_level_headings (page : Text) :
    (Audit.Headings.headings page).map (·.level) = elementLevels page := by
  simp [Audit.Headings.headings, elementLevels, Function.comp_def]

theorem levels_eq (page : Text) :
    levels page = (Tag.findAll .heading page).map fun tag => tag.level?.getD 0 := by
  simp [levels, headings, Function.comp_def]

theorem elementLevels_sublist (page : Text) : elementLevels page <+ levels page := by
  have hopening : elementLevels page =
      ((Element.findAll .heading page).map Element.opening).map fun tag => tag.level?.getD 0 := by
    rw [List.map_map]
    rfl
  rw [hopening, levels_eq]
  exact (Element.map_opening_sublist (show TagName.heading.IsPlain from trivial) page).map _

/-- As many elements as tags means that every tag opens an element. -/
theorem map_opening_eq_findAll {page : Text}
    (h : (Element.findAll .heading page).length = (Tag.findAll .heading page).length) :
    (Element.findAll .heading page).map Element.opening = Tag.findAll .heading page :=
  (Element.map_opening_sublist (show TagName.heading.IsPlain from trivial) page).eq_of_length (by simpa using h)

/-- What is announced of a heading that has its text between its tags. -/
def elementEntry (e : Element) : String :=
  let text := Text.strip e.text
  s!"level {e.level?.getD 0}: " ++ (if text.isEmpty then "heading" else String.ofList text)

theorem map_outlineEntry_headings {page : Text}
    (h : (Element.findAll .heading page).length = (Tag.findAll .heading page).length) :
    (headings page).map (outlineEntry page) = (Element.findAll .heading page).map elementEntry := by
  rw [headings, ← map_opening_eq_findAll h, List.map_map, List.map_map]
  apply List.map_congr_left
  intro e he
  have htext := (Element.opening_mem (show TagName.heading.IsPlain from trivial) he).2
  simp only [Function.comp_apply, outlineEntry, htext, elementEntry]
  rfl

/-! ## The judgement of the audit -/

/-- The rules that the exercise knows as well. -/
def outlineRules : List Audit.Rule :=
  [.headingsMissing, .topHeadingRepeated, .topHeadingMissing, .levelSkipped]

theorem skips_map_level (hs : List Audit.Headings.Heading) :
    skips (hs.map (·.level)) = (hs.zip hs.tail).any fun pair => pair.1.level + 1 < pair.2.level := by
  simp [skips, ← List.map_tail, List.zip_map, List.any_map, Function.comp_def]

theorem topCount_eq_count (hs : List Audit.Headings.Heading) :
    Audit.Headings.topCount hs = (hs.map (·.level)).count 1 := by
  rw [Audit.Headings.topCount, List.count, List.countP_map]
  apply List.countP_congr
  intro h _
  simp

theorem topIssues_clear_iff (count : Nat) :
    (∀ i ∈ Audit.Headings.topIssues count, i.rule ∉ outlineRules) ↔ count = 1 := by
  unfold Audit.Headings.topIssues
  by_cases hmany : 1 < count
  · simp [hmany, Audit.Issue.rule, outlineRules]
    omega
  by_cases hnone : count = 0
  · simp [hnone, Audit.Issue.rule, outlineRules]
  · simp [hmany, hnone]
    omega

theorem skipIssues_clear_iff (hs : List Audit.Headings.Heading) :
    (∀ i ∈ (hs.zip hs.tail).flatMap Audit.Headings.skipIssues, i.rule ∉ outlineRules) ↔
      skips (hs.map (·.level)) = false := by
  have hpair : ∀ pair, (∀ i ∈ Audit.Headings.skipIssues pair, i.rule ∉ outlineRules) ↔
      ¬ pair.1.level + 1 < pair.2.level := by
    rintro ⟨above, below⟩
    by_cases h : above.level + 1 < below.level <;>
      simp [Audit.Headings.skipIssues, h, Audit.Issue.rule, outlineRules]
  rw [skips_map_level, List.any_eq_false]
  simp only [List.mem_flatMap, forall_exists_index, and_imp, decide_eq_true_eq]
  constructor
  · intro h pair hmem
    exact (hpair pair).mp fun i hi => h i pair hmem hi
  · intro h i pair hmem hi
    exact (hpair pair).mpr (h pair hmem) i hi

/-- An empty heading is no matter of the outline. -/
theorem textIssues_clear (hs : List (Audit.Headings.Heading × Nat)) :
    ∀ i ∈ hs.flatMap Audit.Headings.textIssues, i.rule ∉ outlineRules := by
  intro i hi
  obtain ⟨⟨h, number⟩, -, hi⟩ := List.mem_flatMap.mp hi
  by_cases hempty : h.text.isEmpty = true
  · rw [Audit.Headings.textIssues, if_pos hempty] at hi
    obtain rfl := List.mem_singleton.mp hi
    simp [Audit.Issue.rule, outlineRules]
  · rw [Audit.Headings.textIssues, if_neg hempty] at hi
    exact absurd hi List.not_mem_nil

/-- The audit finds no fault with an outline exactly when the exercise passes it. -/
theorem issues_clear_iff (hs : List Audit.Headings.Heading) :
    (∀ i ∈ Audit.Headings.issues hs, i.rule ∉ outlineRules) ↔
      (hs.map (·.level)).count 1 = 1 ∧ skips (hs.map (·.level)) = false := by
  cases hs with
  | nil => simp [Audit.Headings.issues, Audit.Issue.rule, outlineRules]
  | cons h rest =>
      rw [Audit.Headings.issues, if_neg (by simp), List.append_assoc, List.forall_mem_append,
        List.forall_mem_append, topIssues_clear_iff, skipIssues_clear_iff, topCount_eq_count]
      exact and_congr_right fun _ => and_iff_left (textIssues_clear _)

/-! ## Agreement -/

/-- The exercise about headings and the heading report of the audit agree. A page where the audit counts several top
headings fails; where every heading tag opens an element with plain text, the exercise passes exactly the pages whose
report has none of the outline's issues, and announces the elements with their levels and texts. -/
theorem heading_agrees_with_audit (page : Text) :
    (∀ count, (Audit.ofPage page).headings.count? "h1_count" = some count → 1 < count →
        ∃ v, verify page (.ofValue (.text "heading".toList)) = .ok v ∧ v.passed = false) ∧
      ((Audit.ofPage page).headings.count? "heading_count" = some (Tag.findAll .heading page).length →
        ∃ v, verify page (.ofValue (.text "heading".toList)) = .ok v ∧
          (v.passed = true ↔ ∀ i ∈ (Audit.ofPage page).headings.issues, i.rule ∉ outlineRules) ∧
          (v.passed = true → v.announcement = some ("Heading structure: " ++
            ", ".intercalate ((Element.findAll .heading page).map elementEntry)))) ∧
      ∀ e ∈ Element.findAll .heading page, ∃ level, e.level? = some level ∧ 1 ≤ level ∧ level ≤ 6 := by
  have hverify : verify page (.ofValue (.text "heading".toList)) = .ok (heading page) := rfl
  have hreport : (Audit.ofPage page).headings = .ofIssues (Audit.Headings.issues (Audit.Headings.headings page)) _ :=
    Audit.Headings.report_eq page
  refine ⟨?_, ?_, fun e he => Element.level_of_mem_findAll he⟩
  · intro count hcount hmany
    refine ⟨heading page, hverify, ?_⟩
    rw [hreport] at hcount
    obtain rfl : Audit.Headings.topCount (Audit.Headings.headings page) = count := by
      simpa [Audit.Report.count?, Audit.Report.ofIssues] using hcount
    rw [topCount_eq_count, map_level_headings] at hmany
    have htags : 1 < (levels page).count 1 := Nat.lt_of_lt_of_le hmany ((elementLevels_sublist page).count_le 1)
    rw [← Bool.not_eq_true, heading_passed_iff]
    rintro ⟨hone, -⟩
    omega
  · intro hcount
    rw [hreport] at hcount ⊢
    have hlength : (Element.findAll .heading page).length = (Tag.findAll .heading page).length := by
      simpa [Audit.Report.count?, Audit.Report.ofIssues, Audit.Headings.headings, List.lookup_cons] using hcount
    have hlevels : elementLevels page = levels page :=
      (elementLevels_sublist page).eq_of_length (by simpa [elementLevels, levels_eq] using hlength)
    refine ⟨heading page, hverify, ?_, ?_⟩
    · rw [heading_passed_iff, ← hlevels, ← map_level_headings]
      exact (issues_clear_iff _).symm
    · intro hpassed
      rw [heading_announcement hpassed, map_outlineEntry_headings hlength]

theorem heading_agrees_with_audit_empty_second :
    (Audit.ofPage "<H1>A</H1><h2> </h2>".toList).headings.count? "heading_count" = some 2 ∧
      ∃ v, verify "<H1>A</H1><h2> </h2>".toList (.ofValue (.text "heading".toList)) = .ok v ∧
        v.announcement = some "Heading structure: level 1: A, level 2: heading" := by
  have hcount : (Audit.ofPage "<H1>A</H1><h2> </h2>".toList).headings.count? "heading_count" =
      some (Tag.findAll .heading "<H1>A</H1><h2> </h2>".toList).length := by
    decide +kernel
  obtain ⟨v, hv, hpassed, hannouncement⟩ :=
    (heading_agrees_with_audit "<H1>A</H1><h2> </h2>".toList).2.1 hcount
  refine ⟨by decide +kernel, v, hv, ?_⟩
  rw [hannouncement (hpassed.mpr (by decide +kernel))]
  decide +kernel

end Exercise

end Accessibility
