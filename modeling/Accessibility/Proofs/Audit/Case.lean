import Accessibility.Proofs.Audit.Ledger
import Accessibility.Proofs.Markup.Case

/-! # Reports without regard to case

Making the capitals of a page small changes no issue but in the source that it shows. The report on forms is the one
that looks identifiers up as they are written, so nothing is said of it here. -/

namespace Accessibility.Audit

open Text (foldCase)

/-! ## Reports that agree -/

/-- What an issue says, without the source that it is about. -/
def Issue.gist (i : Issue) : Severity × Rule × String :=
  (i.severity, i.rule, i.message)

/-- Two reports that agree in everything but the sources of their issues. -/
structure Report.Agrees (r r' : Report) : Prop where
  passed_eq : r.passed = r'.passed
  score_eq : r.score = r'.score
  counts_eq : r.counts = r'.counts
  gists_eq : r.issues.map Issue.gist = r'.issues.map Issue.gist

theorem Report.Agrees.symm {r r' : Report} (h : r.Agrees r') : r'.Agrees r :=
  ⟨h.passed_eq.symm, h.score_eq.symm, h.counts_eq.symm, h.gists_eq.symm⟩

theorem Report.Agrees.trans {r r' r'' : Report} (h : r.Agrees r') (h' : r'.Agrees r'') : r.Agrees r'' :=
  ⟨h.passed_eq.trans h'.passed_eq, h.score_eq.trans h'.score_eq, h.counts_eq.trans h'.counts_eq,
    h.gists_eq.trans h'.gists_eq⟩

/-- Score and verdict depend on nothing but what the issues say. -/
theorem Report.ofIssues_agrees {issues issues' : List Issue} (h : issues.map Issue.gist = issues'.map Issue.gist)
    (counts : List (String × Nat)) : (ofIssues issues counts).Agrees (ofIssues issues' counts) := by
  have hrules : (issues.map Issue.rule).Perm (issues'.map Issue.rule) := by
    have hsecond := congrArg (List.map (·.2.1)) h
    rw [List.map_map, List.map_map] at hsecond
    exact .of_eq hsecond
  refine ⟨?_, ?_, rfl, h⟩
  · simp only [ofIssues, any_error_eq_of_perm hrules]
  · simp only [ofIssues, charges_eq_of_perm hrules]

/-! ## Images -/

theorem isRedundant_foldCase (alternative : Text) : isRedundant (foldCase alternative) = isRedundant alternative := by
  rw [isRedundant, Text.lower_foldCase, isRedundant]

namespace Images

theorem sources_foldCase (page : Text) : sources (foldCase page) = (sources page).map foldCase := by
  simp only [sources, Tag.findAll_foldCase, List.map_map]
  rfl

theorem gists_found_foldCase (image : Text) (number : Nat) :
    (found (foldCase image, number)).map Issue.gist = (found (image, number)).map Issue.gist := by
  unfold found
  dsimp only
  rw [Attribute.value?_foldCase]
  cases Attribute.value? "alt".toList image with
  | none => rfl
  | some alternative =>
      simp only [Option.map_some, Text.isEmpty_foldCase, Text.length_foldCase, isRedundant_foldCase,
        apply_ite (List.map Issue.gist)]
      rfl

theorem gists_issues_foldCase (page : Text) :
    (issues (foldCase page)).map Issue.gist = (issues page).map Issue.gist := by
  have hfound : ∀ item : Text × Nat, (found (item.map foldCase id)).map Issue.gist = (found item).map Issue.gist :=
    fun (image, number) => gists_found_foldCase image number
  simp only [issues, sources_foldCase, List.zipIdx_map, List.flatMap_map, List.map_flatMap, hfound]

theorem report_foldCase (page : Text) : (report (foldCase page)).Agrees (report page) := by
  rw [report_eq, report_eq, sources_foldCase, List.length_map]
  exact Report.ofIssues_agrees (gists_issues_foldCase page) _

end Images

/-! ## Headings -/

namespace Headings

/-- The heading in the page whose capitals are made small. -/
def Heading.foldCase (h : Heading) : Heading :=
  { h with text := Text.foldCase h.text, raw := Text.foldCase h.raw }

theorem headings_foldCase (page : Text) :
    headings (Text.foldCase page) = (headings page).map Heading.foldCase := by
  simp only [headings, Element.findAll_foldCase, List.map_map]
  apply List.map_congr_left
  intro e _
  simp only [Function.comp_apply, Element.foldCase, Heading.foldCase, Text.strip_foldCase]
  rfl

theorem topCount_foldCase (hs : List Heading) : topCount (hs.map Heading.foldCase) = topCount hs := by
  rw [topCount, List.countP_map]
  rfl

theorem gists_issues_foldCase (hs : List Heading) :
    (issues (hs.map Heading.foldCase)).map Issue.gist = (issues hs).map Issue.gist := by
  have hskip : ∀ pair : Heading × Heading, (skipIssues (pair.map Heading.foldCase Heading.foldCase)).map Issue.gist =
      (skipIssues pair).map Issue.gist := by
    rintro ⟨above, below⟩
    unfold skipIssues
    dsimp only [Prod.map_apply, Heading.foldCase]
    by_cases hskip : above.level + 1 < below.level
    · rw [if_pos hskip, if_pos hskip]
      rfl
    · rw [if_neg hskip, if_neg hskip]
  have htext : ∀ item : Heading × Nat, (textIssues (item.map Heading.foldCase id)).map Issue.gist =
      (textIssues item).map Issue.gist := by
    rintro ⟨heading, number⟩
    simp only [textIssues, Prod.map_apply, Heading.foldCase, Text.isEmpty_foldCase]
    split <;> rfl
  simp only [issues, List.isEmpty_map, topCount_foldCase, ← List.map_tail, List.zip_map, List.zipIdx_map,
    List.flatMap_map, apply_ite (List.map Issue.gist), List.map_append, List.map_flatMap, hskip, htext]

theorem report_foldCase (page : Text) : (report (Text.foldCase page)).Agrees (report page) := by
  rw [report_eq, report_eq, headings_foldCase, topCount_foldCase, List.length_map]
  exact Report.ofIssues_agrees (gists_issues_foldCase _) _

end Headings

/-! ## Accessibility attributes -/

namespace Aria

theorem isNamed_foldCase (button : Element) : isNamed button.foldCase = isNamed button := by
  simp only [isNamed, Element.foldCase, Text.strip_foldCase, Text.isEmpty_foldCase, Attribute.isGiven_foldCase]

theorem gists_issues_foldCase (page : Text) :
    (issues (foldCase page)).map Issue.gist = (issues page).map Issue.gist := by
  have hbutton : ∀ button : Element, (buttonIssues button.foldCase).map Issue.gist =
      (buttonIssues button).map Issue.gist := by
    intro button
    simp only [buttonIssues, isNamed_foldCase, apply_ite (List.map Issue.gist)]
    rfl
  simp only [issues, Element.findAll_foldCase, Attribute.ariaNames_foldCase, List.map_append, List.map_flatMap,
    List.flatMap_map, hbutton]

theorem report_foldCase (page : Text) : (report (foldCase page)).Agrees (report page) := by
  rw [report_eq, report_eq, Attribute.ariaNames_foldCase]
  exact Report.ofIssues_agrees (gists_issues_foldCase page) _

end Aria

/-- The case of letters changes no report but the one that compares identifiers. -/
theorem Subject.report_foldCase {s : Subject} (h : s ≠ .forms) (page : Text) :
    (s.report (foldCase page)).Agrees (s.report page) := by
  cases s with
  | images => exact Images.report_foldCase page
  | headings => exact Headings.report_foldCase page
  | forms => exact absurd rfl h
  | aria => exact Aria.report_foldCase page

end Accessibility.Audit
