import Accessibility.Audit.Page
import Mathlib.Algebra.Ring.Nat

/-! # The ledger of an audit

A report keeps its score apart from its issues. Every step of the four analyzers enters issues and takes off exactly
the penalties of their rules, so that a closed report is determined by its issues. -/

namespace Accessibility.Audit

/-! ## Rules -/

namespace Rule

/-- What breaking the rule once takes off the score. -/
def penalty : Rule → Nat
  | altMissing => 30
  | altEmpty => 5
  | altShort => 10
  | altRedundant => 10
  | headingsMissing => 20
  | topHeadingRepeated => 25
  | topHeadingMissing => 15
  | levelSkipped => 10
  | headingEmpty => 15
  | inputUnidentified => 10
  | inputUnlabelled => 20
  | placeholderAsLabel => 15
  | buttonUnnamed => 25
  | attributeUnknown => 5

def severity : Rule → Severity
  | altMissing | topHeadingRepeated | headingEmpty | inputUnlabelled | buttonUnnamed => .error
  | _ => .warning

end Rule

/-- The penalties of issues together. -/
def charges (issues : List Issue) : Nat :=
  (issues.map fun i => i.rule.penalty).sum

@[simp] theorem charges_nil : charges [] = 0 := rfl

@[simp] theorem charges_append (front behind : List Issue) :
    charges (front ++ behind) = charges front + charges behind := by
  simp [charges]

theorem Issue.severity_eq (i : Issue) : i.severity = i.rule.severity := by
  cases i <;> rfl

/-- No issue is a mere information. -/
theorem countOf_error_add_warning (issues : List Issue) :
    countOf .error issues + countOf .warning issues = issues.length := by
  induction issues with
  | nil => rfl
  | cons i issues ih =>
      have hi : i.severity = .error ∨ i.severity = .warning := by cases i <;> simp [Issue.severity]
      simp only [countOf, List.countP_cons, List.length_cons] at ih ⊢
      rcases hi with hi | hi <;> simp [hi] <;> omega

/-- Every penalty is a multiple of five and none is zero. -/
theorem penalty_bounds (r : Rule) : 5 ≤ r.penalty ∧ 5 ∣ r.penalty := by
  cases r <;> decide

theorem five_dvd_charges (issues : List Issue) : 5 ∣ charges issues := by
  induction issues with
  | nil => exact Nat.dvd_zero 5
  | cons i issues ih => exact Nat.dvd_add (penalty_bounds i.rule).2 ih

theorem five_le_charges {issues : List Issue} (h : issues ≠ []) : 5 ≤ charges issues := by
  cases issues with
  | nil => exact absurd rfl h
  | cons i issues => exact Nat.le_trans (penalty_bounds i.rule).1 (Nat.le_add_right _ _)

/-- What issues cost depends on nothing but how often each rule is broken. -/
theorem charges_eq_of_perm {issues issues' : List Issue} (h : (issues.map Issue.rule).Perm (issues'.map Issue.rule)) :
    charges issues = charges issues' := by
  have hcharges : ∀ issues : List Issue, charges issues = ((issues.map Issue.rule).map Rule.penalty).sum := by
    intro issues
    rw [List.map_map]
    rfl
  rw [hcharges, hcharges, (h.map _).sum_nat]

/-- Whether there is an error among issues depends on nothing but the rules that are broken. -/
theorem any_error_eq_of_perm {issues issues' : List Issue}
    (h : (issues.map Issue.rule).Perm (issues'.map Issue.rule)) :
    issues.any (·.severity = .error) = issues'.any (·.severity = .error) := by
  have hany : ∀ issues : List Issue, issues.any (·.severity = .error) =
      (issues.map Issue.rule).any (·.severity = .error) := by
    intro issues
    simp only [List.any_map, Function.comp_def, Issue.severity_eq]
  rw [hany, hany, h.any_eq]

/-! ## Entering issues -/

namespace Ledger

/-- Enters issues at the penalties of their rules. -/
def post (l : Ledger) (issues : List Issue) : Ledger :=
  ⟨l.issues ++ issues, l.balance - charges issues⟩

@[simp] theorem post_nil (l : Ledger) : l.post [] = l := by
  simp [post]

@[simp] theorem post_post (l : Ledger) (front behind : List Issue) :
    (l.post front).post behind = l.post (front ++ behind) := by
  simp only [post, List.append_assoc, charges_append, Ledger.mk.injEq, true_and]
  omega

/-- An issue is entered properly when the penalty that is charged is the one of its rule. -/
theorem charge_add (l : Ledger) (i : Issue) {penalty : Nat} (h : penalty = i.rule.penalty) :
    (l.add i).charge penalty = l.post [i] := by
  simp [add, charge, post, charges, h]

/-- A loop whose every step posts issues posts them all, in order. -/
theorem foldl_eq_post {α : Type} {step : Ledger → α → Ledger} {found : α → List Issue}
    (hstep : ∀ l a, step l a = l.post (found a)) (items : List α) (l : Ledger) :
    items.foldl step l = l.post (items.flatMap found) := by
  induction items generalizing l with
  | nil => simp
  | cons a items ih => rw [List.foldl_cons, hstep, ih, post_post, List.flatMap_cons]

end Ledger

/-- The report that issues determine. -/
def Report.ofIssues (issues : List Issue) (counts : List (String × Nat)) : Report where
  passed := !issues.any (·.severity = .error)
  score := fullScore - charges issues
  issues := issues
  counts := counts

/-- A count of a report by its name. -/
def Report.count? (r : Report) (name : String) : Option Nat :=
  r.counts.lookup name

theorem Ledger.close_post (issues : List Issue) (counts : List (String × Nat)) :
    (opening.post issues).close counts = .ofIssues issues counts := by
  simp only [close, post, opening, Report.ofIssues, List.nil_append, Report.mk.injEq, true_and, and_true]
  omega

/-! ## The four analyzers -/

namespace Images

/-- What is wrong with one image. -/
def found : Text × Nat → List Issue
  | (image, number) =>
    match Attribute.value? "alt".toList image with
    | none => [.altMissing number image]
    | some alternative =>
      if alternative.isEmpty then [.altEmpty number image]
      else if alternative.length < leastLength then [.altShort number image]
      else if isRedundant alternative then [.altRedundant number image]
      else []

def issues (page : Text) : List Issue :=
  ((sources page).zipIdx 1).flatMap found

theorem judge_eq (l : Ledger) (image : Text × Nat) : judge l image = l.post (found image) := by
  obtain ⟨source, number⟩ := image
  unfold judge found
  dsimp only
  cases Attribute.value? "alt".toList source with
  | none => exact l.charge_add (.altMissing number source) rfl
  | some alternative =>
      simp only [apply_ite l.post, Ledger.post_nil]
      refine ite_congr rfl (fun _ => l.charge_add _ rfl) fun _ => ?_
      refine ite_congr rfl (fun _ => l.charge_add _ rfl) fun _ => ?_
      exact ite_congr rfl (fun _ => l.charge_add _ rfl) fun _ => rfl

theorem report_eq (page : Text) :
    report page = .ofIssues (issues page) [("image_count", (sources page).length)] := by
  simp only [report, issues]
  split
  · rename_i h
    rw [List.isEmpty_iff.mp h]
    rfl
  · rw [Ledger.foldl_eq_post judge_eq, Ledger.close_post]

end Images

namespace Headings

def topIssues (count : Nat) : List Issue :=
  if 1 < count then [.topHeadingRepeated count] else if count = 0 then [.topHeadingMissing] else []

def skipIssues : Heading × Heading → List Issue
  | (above, below) =>
    if above.level + 1 < below.level then [.levelSkipped above.level below.level below.raw] else []

def textIssues : Heading × Nat → List Issue
  | (h, number) => if h.text.isEmpty then [.headingEmpty number h.raw] else []

/-- What is wrong with an outline. An empty one has one issue, whatever else could be said of it. -/
def issues (hs : List Heading) : List Issue :=
  if hs.isEmpty then [.headingsMissing]
  else topIssues (topCount hs) ++ (hs.zip hs.tail).flatMap skipIssues ++ (hs.zipIdx 1).flatMap textIssues

theorem judgeTop_eq (count : Nat) (l : Ledger) : judgeTop count l = l.post (topIssues count) := by
  simp only [judgeTop, topIssues, apply_ite l.post, Ledger.post_nil]
  refine ite_congr rfl (fun _ => l.charge_add _ rfl) fun _ => ?_
  exact ite_congr rfl (fun _ => l.charge_add _ rfl) fun _ => rfl

theorem judgeStep_eq (l : Ledger) (pair : Heading × Heading) : judgeStep l pair = l.post (skipIssues pair) := by
  simp only [judgeStep, skipIssues, apply_ite l.post, Ledger.post_nil]
  exact ite_congr rfl (fun _ => l.charge_add _ rfl) fun _ => rfl

theorem judgeText_eq (l : Ledger) (heading : Heading × Nat) : judgeText l heading = l.post (textIssues heading) := by
  simp only [judgeText, textIssues, apply_ite l.post, Ledger.post_nil]
  exact ite_congr rfl (fun _ => l.charge_add _ rfl) fun _ => rfl

theorem report_eq (page : Text) :
    report page = .ofIssues (issues (headings page))
      [("h1_count", topCount (headings page)), ("heading_count", (headings page).length)] := by
  simp only [report, issues]
  split
  · rename_i h
    rw [List.isEmpty_iff.mp h]
    rfl
  · rw [judgeTop_eq, Ledger.foldl_eq_post judgeStep_eq, Ledger.foldl_eq_post judgeText_eq, Ledger.post_post,
      Ledger.post_post, Ledger.close_post, List.append_assoc]

end Headings

namespace Forms

/-- What is wrong with one input: nothing if it is hidden or labelled, two things if a placeholder stands in for its
identifier. -/
def found (targets : List Text) : Text × Nat → List Issue
  | (input, number) =>
    if isHidden input then []
    else
      match Attribute.value? "id".toList input with
      | some id => if targets.contains id then [] else [.inputUnlabelled number input id]
      | none =>
        if (Attribute.value? "placeholder".toList input).isSome then
          [.inputUnidentified number input, .placeholderAsLabel number input]
        else [.inputUnidentified number input]

def issues (page : Text) : List Issue :=
  ((inputs page).zipIdx 1).flatMap (found (targets page))

theorem judge_eq (targets : List Text) (l : Ledger) (input : Text × Nat) :
    judge targets l input = l.post (found targets input) := by
  obtain ⟨source, number⟩ := input
  unfold judge found
  dsimp only
  rw [apply_ite l.post, Ledger.post_nil]
  congr 1
  cases Attribute.value? "id".toList source with
  | some id =>
      simp only [Option.isNone_some, Bool.false_and, Bool.false_eq_true, if_false, apply_ite l.post, Ledger.post_nil]
      exact ite_congr rfl (fun _ => rfl) fun _ => l.charge_add _ rfl
  | none =>
      -- The placeholder is charged on top of the missing identifier.
      have hfirst : (l.add (.inputUnidentified number source)).charge Penalty.inputUnidentified =
          l.post [.inputUnidentified number source] := l.charge_add _ rfl
      simp only [Option.isNone_none, Bool.true_and, apply_ite l.post, hfirst]
      refine ite_congr rfl (fun _ => ?_) fun _ => rfl
      exact ((l.post _).charge_add _ rfl).trans (l.post_post _ _)

theorem report_eq (page : Text) :
    report page = .ofIssues (issues page)
      [("input_count", (inputs page).length), ("label_count", (labels page).length)] := by
  simp only [report, issues]
  split
  · rename_i h
    rw [List.isEmpty_iff.mp h]
    rfl
  · rw [Ledger.foldl_eq_post (judge_eq _), Ledger.close_post]

end Forms

namespace Aria

def buttonIssues (button : Element) : List Issue :=
  if isNamed button then [] else [.buttonUnnamed button.raw]

def attributeIssues (name : Text) : List Issue :=
  if known.contains name then [] else [.attributeUnknown name]

def issues (page : Text) : List Issue :=
  (Element.findAll .button page).flatMap buttonIssues ++ (Attribute.ariaNames page).flatMap attributeIssues

theorem judgeButton_eq (l : Ledger) (button : Element) : judgeButton l button = l.post (buttonIssues button) := by
  simp only [judgeButton, buttonIssues, apply_ite l.post, Ledger.post_nil]
  exact ite_congr rfl (fun _ => rfl) fun _ => l.charge_add _ rfl

theorem judgeAttribute_eq (l : Ledger) (name : Text) : judgeAttribute l name = l.post (attributeIssues name) := by
  simp only [judgeAttribute, attributeIssues, apply_ite l.post, Ledger.post_nil]
  exact ite_congr rfl (fun _ => rfl) fun _ => l.charge_add _ rfl

theorem report_eq (page : Text) :
    report page = .ofIssues (issues page) [("aria_attribute_count", (Attribute.ariaNames page).length)] := by
  simp only [report, issues]
  rw [Ledger.foldl_eq_post judgeButton_eq, Ledger.foldl_eq_post judgeAttribute_eq, Ledger.post_post,
    Ledger.close_post]

end Aria

end Accessibility.Audit
