import Accessibility.Proofs.Audit.Ledger
import Accessibility.Proofs.Markup.Seam

/-! # Reports of joined pages

The reports on images and on accessibility attributes look at one thing at a time. On a page that is joined at a seam
they have the issues of the two parts, the images behind the seam with higher numbers. The scores of the parts are
floored one by one; that does no harm, since a part that has lost its whole score leaves nothing to the other. -/

namespace Accessibility.Audit

/-! ## Two reports in one -/

/-- The issue that an image has behind that many others. -/
def Issue.renumber (n : Nat) : Issue → Issue
  | .altMissing number image => .altMissing (number + n) image
  | .altEmpty number image => .altEmpty (number + n) image
  | .altShort number image => .altShort (number + n) image
  | .altRedundant number image => .altRedundant (number + n) image
  | i => i

/-- Two issues that differ in nothing but their message. -/
structure Issue.SameButMessage (i j : Issue) : Prop where
  rule_eq : j.rule = i.rule
  severity_eq : j.severity = i.severity
  element_eq : j.element = i.element
  suggestion_eq : j.suggestion = i.suggestion

theorem Issue.sameButMessage_renumber (n : Nat) (i : Issue) : i.SameButMessage (i.renumber n) := by
  cases i <;> exact ⟨rfl, rfl, rfl, rfl⟩

/-- A report that consists of two others. The issues of the second are moved behind those of the first, rule by rule. -/
structure Report.Composed (whole front behind : Report) (moved : Issue → Issue) : Prop where
  score_eq : (whole.score : Int) = max 0 ((front.score : Int) + behind.score - 100)
  passed_iff : whole.passed = true ↔ front.passed = true ∧ behind.passed = true
  issues_eq : ∀ rule, whole.issues.filter (·.rule = rule) =
    front.issues.filter (·.rule = rule) ++ (behind.issues.filter (·.rule = rule)).map moved
  same_but_message : ∀ i ∈ behind.issues, i.SameButMessage (moved i)

/-- Whether an issue fails a report and what it costs depends on its rule only, so it is enough to compare the issues
rule by rule. -/
theorem Report.ofIssues_composed {whole front behind : List Issue} {moved : Issue → Issue}
    (hperm : whole.Perm (front ++ behind.map moved))
    (hissues : ∀ rule, whole.filter (·.rule = rule) =
      front.filter (·.rule = rule) ++ (behind.filter (·.rule = rule)).map moved)
    (hmoved : ∀ i : Issue, i.SameButMessage (moved i)) (counts countsFront countsBehind : List (String × Nat)) :
    (ofIssues whole counts).Composed (ofIssues front countsFront) (ofIssues behind countsBehind) moved := by
  have hrules : (whole.map Issue.rule).Perm ((front ++ behind).map Issue.rule) := by
    have hbehind : (behind.map moved).map Issue.rule = behind.map Issue.rule := by
      simp [Function.comp_def, (hmoved _).rule_eq]
    rw [List.map_append, ← hbehind, ← List.map_append]
    exact hperm.map Issue.rule
  refine ⟨?_, ?_, hissues, fun i _ => hmoved i⟩
  · simp only [ofIssues, fullScore, charges_eq_of_perm hrules, charges_append]
    omega
  · simp only [ofIssues, any_error_eq_of_perm hrules, List.any_append, Bool.not_or, Bool.and_eq_true]

/-! ## Images -/

namespace Images

theorem sources_append {front behind : Text} (h : Seam front behind) :
    sources (front ++ behind) = sources front ++ sources behind := by
  simp only [sources, Tag.findAll_append (TagName.isPlain_all .img (by decide)) h, List.map_append, List.map_map]
  rfl

theorem found_add (image : Text) (number n : Nat) :
    found (image, number + n) = (found (image, number)).map (Issue.renumber n) := by
  unfold found
  dsimp only
  cases Attribute.value? "alt".toList image with
  | none => rfl
  | some alternative =>
      simp only [apply_ite (List.map (Issue.renumber n))]
      rfl

/-- The images behind a seam are numbered on. -/
theorem issues_append {front behind : Text} (h : Seam front behind) :
    issues (front ++ behind) = issues front ++ (issues behind).map (Issue.renumber (sources front).length) := by
  have hnumbers : (sources behind).zipIdx (1 + (sources front).length) =
      ((sources behind).zipIdx 1).map fun p => (p.1, p.2 + (sources front).length) := by
    rw [Nat.add_comm, ← List.map_snd_add_zipIdx_eq_zipIdx]
    rfl
  rw [issues, sources_append h, List.zipIdx_append, List.flatMap_append, hnumbers, List.flatMap_map, issues, issues,
    List.map_flatMap]
  simp only [found_add]

/-- At most one thing is wrong with an image. -/
theorem eq_of_mem_found {image : Text} {number : Nat} {i : Issue} (h : i ∈ found (image, number)) :
    i = .altMissing number image ∨ i = .altEmpty number image ∨ i = .altShort number image ∨
      i = .altRedundant number image := by
  grind [found]

/-- The message about an image gives its number. -/
theorem message_renumber {page : Text} {i : Issue} (hi : i ∈ issues page) (n : Nat) :
    ∃ number words, i.message = "Image " ++ toString number ++ words ∧
      (i.renumber n).message = "Image " ++ toString (number + n) ++ words := by
  obtain ⟨⟨image, number⟩, -, hfound⟩ := List.mem_flatMap.mp hi
  refine ⟨number, ?_⟩
  rcases eq_of_mem_found hfound with rfl | rfl | rfl | rfl
  all_goals exact ⟨_, rfl, rfl⟩

theorem report_composed {front behind : Text} (h : Seam front behind) :
    (report (front ++ behind)).Composed (report front) (report behind) (Issue.renumber (sources front).length) := by
  have hsame := Issue.sameButMessage_renumber (sources front).length
  rw [report_eq, report_eq, report_eq]
  refine Report.ofIssues_composed (.of_eq (issues_append h)) ?_ hsame _ _ _
  intro rule
  simp only [issues_append h, List.filter_append, List.filter_map, Function.comp_def, (hsame _).rule_eq]

end Images

/-! ## Accessibility attributes -/

namespace Aria

/-- What is wrong with the buttons of a page. -/
def buttonsIssues (page : Text) : List Issue :=
  (Element.findAll .button page).flatMap buttonIssues

/-- What is wrong with the attributes of a page. -/
def attributesIssues (page : Text) : List Issue :=
  (Attribute.ariaNames page).flatMap attributeIssues

theorem issues_eq (page : Text) : issues page = buttonsIssues page ++ attributesIssues page := rfl

theorem buttonsIssues_append {front behind : Text} (h : Seam front behind) :
    buttonsIssues (front ++ behind) = buttonsIssues front ++ buttonsIssues behind := by
  have hfound := Element.findAll_append (TagName.isPlain_all .button (by decide)) h
  simp only [buttonsIssues, hfound, List.flatMap_append, List.flatMap_map]
  rfl

theorem attributesIssues_append {front behind : Text} (h : Seam front behind) :
    attributesIssues (front ++ behind) = attributesIssues front ++ attributesIssues behind := by
  rw [attributesIssues, Attribute.ariaNames_append h, List.flatMap_append, attributesIssues, attributesIssues]

theorem rule_of_mem_buttonsIssues {page : Text} {i : Issue} (h : i ∈ buttonsIssues page) : i.rule = .buttonUnnamed := by
  obtain ⟨button, -, hi⟩ := List.mem_flatMap.mp h
  unfold buttonIssues at hi
  split at hi
  · exact absurd hi List.not_mem_nil
  · rw [List.mem_singleton.mp hi]
    rfl

theorem rule_of_mem_attributesIssues {page : Text} {i : Issue} (h : i ∈ attributesIssues page) :
    i.rule = .attributeUnknown := by
  obtain ⟨name, -, hi⟩ := List.mem_flatMap.mp h
  unfold attributeIssues at hi
  split at hi
  · exact absurd hi List.not_mem_nil
  · rw [List.mem_singleton.mp hi]
    rfl

/-- The issues of one rule are all about buttons or all about attributes, so that these two change places freely. -/
theorem filter_comm (front behind : Text) (rule : Rule) :
    (buttonsIssues behind).filter (·.rule = rule) ++ (attributesIssues front).filter (·.rule = rule) =
      (attributesIssues front).filter (·.rule = rule) ++ (buttonsIssues behind).filter (·.rule = rule) := by
  by_cases hrule : rule = .buttonUnnamed
  · have hnone : (attributesIssues front).filter (·.rule = rule) = [] := by
      rw [List.filter_eq_nil_iff]
      intro i hi
      simp [rule_of_mem_attributesIssues hi, hrule]
    simp [hnone]
  · have hnone : (buttonsIssues behind).filter (·.rule = rule) = [] := by
      rw [List.filter_eq_nil_iff]
      intro i hi
      simpa [rule_of_mem_buttonsIssues hi] using Ne.symm hrule
    simp [hnone]

theorem report_composed {front behind : Text} (h : Seam front behind) :
    (report (front ++ behind)).Composed (report front) (report behind) id := by
  have hissues : issues (front ++ behind) = buttonsIssues front ++ (buttonsIssues behind ++
      (attributesIssues front ++ attributesIssues behind)) := by
    rw [issues_eq, buttonsIssues_append h, attributesIssues_append h, List.append_assoc]
  have hsame : ∀ i : Issue, i.SameButMessage (id i) := fun i => ⟨rfl, rfl, rfl, rfl⟩
  rw [report_eq, report_eq, report_eq]
  refine Report.ofIssues_composed ?_ ?_ hsame _ _ _
  · rw [hissues, issues_eq, issues_eq, List.map_id, List.append_assoc]
    exact (List.perm_append_comm_assoc _ _ _).append_left _
  · intro rule
    rw [hissues, issues_eq, issues_eq, List.map_id]
    simp only [List.filter_append]
    rw [← List.append_assoc ((buttonsIssues behind).filter _), filter_comm]
    simp only [List.append_assoc]

end Aria

/-! ## Both reports -/

/-- The reports on images and on accessibility attributes compose. On a page that is joined at a seam the score is
that of the first part and the second together, less a full score and floored; the verdict is that of both; the counts
add up; and the issues of every rule are those of the first part and then those of the second, where nothing changes
but the numbers of images in messages. -/
theorem reports_compose {front behind : Text} (h : Seam front behind) :
    (∃ m n, (Images.report front).counts = [("image_count", m)] ∧
      (Images.report behind).counts = [("image_count", n)] ∧
      (Images.report (front ++ behind)).counts = [("image_count", m + n)] ∧
      (Images.report (front ++ behind)).Composed (Images.report front) (Images.report behind) (Issue.renumber m) ∧
      ∀ i ∈ (Images.report behind).issues, ∃ number words, i.message = "Image " ++ toString number ++ words ∧
        (i.renumber m).message = "Image " ++ toString (number + m) ++ words) ∧
    ∃ m n, (Aria.report front).counts = [("aria_attribute_count", m)] ∧
      (Aria.report behind).counts = [("aria_attribute_count", n)] ∧
      (Aria.report (front ++ behind)).counts = [("aria_attribute_count", m + n)] ∧
      (Aria.report (front ++ behind)).Composed (Aria.report front) (Aria.report behind) id := by
  constructor
  · refine ⟨(Images.sources front).length, (Images.sources behind).length, ?_, ?_, ?_, Images.report_composed h, ?_⟩
    · rw [Images.report_eq, Report.ofIssues]
    · rw [Images.report_eq, Report.ofIssues]
    · rw [Images.report_eq, Report.ofIssues, Images.sources_append h, List.length_append]
    · intro i hi
      rw [Images.report_eq] at hi
      exact Images.message_renumber hi _
  · refine ⟨(Attribute.ariaNames front).length, (Attribute.ariaNames behind).length, ?_, ?_, ?_, Aria.report_composed h⟩
    · rw [Aria.report_eq, Report.ofIssues]
    · rw [Aria.report_eq, Report.ofIssues]
    · rw [Aria.report_eq, Report.ofIssues, Attribute.ariaNames_append h, List.length_append]

/-- Four images cost the first part more than it has, and the image and the attribute of the second are entered all the
same. -/
theorem reports_compose_floored :
    ∃ front behind, front = "<img><img><img><img><button></button>".toList ∧
      behind = "<img alt=\"\"><p aria-foo=1".toList ∧ Seam front behind ∧
      (Images.report front).score = 0 ∧ (Images.report (front ++ behind)).score = 0 ∧
      (Images.report (front ++ behind)).issues.filter (·.rule = .altEmpty) = [.altEmpty 5 "<img alt=\"\">".toList] ∧
      (Aria.report (front ++ behind)).score = 70 := by
  have hseam : Seam "<img><img><img><img><button></button>".toList "<img alt=\"\"><p aria-foo=1".toList := by decide
  obtain ⟨⟨m, n, hm, -, -, himages, -⟩, -, -, -, -, -, haria⟩ := reports_compose hseam
  have hcounts : (Images.report "<img><img><img><img><button></button>".toList).counts = [("image_count", 4)] := by
    decide +kernel
  have hfront : (Images.report "<img><img><img><img><button></button>".toList).score = 0 := by decide +kernel
  have hbehind : (Images.report "<img alt=\"\"><p aria-foo=1".toList).score = 95 := by decide +kernel
  have hbutton : (Aria.report "<img><img><img><img><button></button>".toList).score = 75 := by decide +kernel
  have hattribute : (Aria.report "<img alt=\"\"><p aria-foo=1".toList).score = 95 := by decide +kernel
  refine ⟨_, _, rfl, rfl, hseam, hfront, ?_, ?_, ?_⟩
  · have hscore := himages.score_eq
    rw [hfront, hbehind] at hscore
    omega
  · rw [hcounts] at hm
    obtain rfl : 4 = m := by simpa using hm
    rw [himages.issues_eq]
    decide +kernel
  · have hscore := haria.score_eq
    rw [hbutton, hattribute] at hscore
    omega

end Accessibility.Audit
