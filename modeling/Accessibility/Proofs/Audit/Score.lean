import Accessibility.Proofs.Audit.Ledger

/-! # Scores and verdicts

Every report, and the audit as a whole, is accounted for by its issues: they give the score and the verdict. The mean
of the four scores is a floating-point number, but for scores of at most a hundred its rounding is that of integers. -/

namespace Accessibility.Audit

/-! ## One report -/

/-- The score and the verdict of a report are those that its issues give. -/
structure Report.Accounted (r : Report) : Prop where
  score_eq : (r.score : Int) = max 0 (100 - (charges r.issues : Int))
  score_le : r.score ≤ 100
  severity_eq : ∀ i ∈ r.issues, i.severity = i.rule.severity
  errors_add_warnings : countOf .error r.issues + countOf .warning r.issues = r.issues.length
  passed_iff : r.passed = true ↔ countOf .error r.issues = 0

theorem not_any_error_iff (issues : List Issue) :
    (!issues.any fun i => i.severity = .error) = true ↔ countOf .error issues = 0 := by
  simp [countOf, List.countP_eq_zero]

theorem Report.ofIssues_accounted (issues : List Issue) (counts : List (String × Nat)) :
    (Report.ofIssues issues counts).Accounted where
  score_eq := by
    simp only [ofIssues, fullScore]
    omega
  score_le := Nat.sub_le _ _
  severity_eq i _ := i.severity_eq
  errors_add_warnings := countOf_error_add_warning issues
  passed_iff := not_any_error_iff issues

/-- All four analyzers close with the report of their issues. -/
theorem Subject.report_accounted (s : Subject) (page : Text) : (s.report page).Accounted := by
  obtain ⟨issues, counts, h⟩ : ∃ issues counts, s.report page = .ofIssues issues counts := by
    cases s with
    | images => exact ⟨_, _, Images.report_eq page⟩
    | headings => exact ⟨_, _, Headings.report_eq page⟩
    | forms => exact ⟨_, _, Forms.report_eq page⟩
    | aria => exact ⟨_, _, Aria.report_eq page⟩
  rw [h]
  exact Report.ofIssues_accounted issues counts

theorem Report.Accounted.score_eq_full_iff {r : Report} (h : r.Accounted) : r.score = 100 ↔ r.issues = [] := by
  have hscore := h.score_eq
  constructor
  · intro hfull
    apply Decidable.byContradiction
    intro hne
    have hcharged := five_le_charges hne
    omega
  · intro hnil
    rw [hnil, charges_nil] at hscore
    omega

theorem Report.Accounted.five_dvd_score {r : Report} (h : r.Accounted) : 5 ∣ r.score := by
  obtain ⟨k, hk⟩ := five_dvd_charges r.issues
  have hscore := h.score_eq
  omega

/-! ## The audit -/

theorem forall_subject {p : Subject → Prop} : (∀ s, p s) ↔ p .images ∧ p .headings ∧ p .forms ∧ p .aria := by
  constructor
  · intro h
    exact ⟨h _, h _, h _, h _⟩
  · rintro ⟨himages, hheadings, hforms, haria⟩ s
    cases s <;> assumption

theorem issues_ofPage (page : Text) :
    (ofPage page).issues = Subject.all.flatMap fun s => (s.report page).issues := by
  simp [issues, ofPage, Subject.all, Subject.report]

/-- Four scores of at most a hundred are too small for floating point to lose anything. -/
theorem roundedMean_four : ∀ total ≤ 400, roundedMean total 4 = (total + 2) / 4 := by
  decide +kernel

theorem score_ofPage (page : Text) :
    (ofPage page).score = ((Subject.all.map fun s => (s.report page).score).sum + 2) / 4 := by
  have hscores := forall_subject.mp fun s => (s.report_accounted page).score_le
  have htotal : (Subject.all.map fun s => (s.report page).score).sum =
      (Images.report page).score + (Headings.report page).score + (Forms.report page).score +
        (Aria.report page).score := by
    simp only [Subject.all, Subject.report, List.map_cons, List.map_nil, List.sum_cons, List.sum_nil]
    omega
  simp only [Subject.report] at hscores
  rw [htotal]
  exact roundedMean_four _ (by simp only [ofPage]; omega)

theorem passed_ofPage_iff (page : Text) :
    (ofPage page).passed = true ↔ ∀ s : Subject, (s.report page).passed = true := by
  have hreport : ∀ s : Subject, (s.report page).passed = true ↔ countOf .error (s.report page).issues = 0 :=
    fun s => (s.report_accounted page).passed_iff
  calc (ofPage page).passed = true
    _ ↔ countOf .error (ofPage page).issues = 0 := not_any_error_iff _
    _ ↔ ∀ s : Subject, countOf .error (s.report page).issues = 0 := by
      rw [issues_ofPage, forall_subject]
      simp [Subject.all, countOf]
    _ ↔ ∀ s : Subject, (s.report page).passed = true := forall_congr' fun s => (hreport s).symm

/-- A page without issues is the only one with a full score: one issue already takes five off a report, which is more
than rounding gives back. -/
theorem score_ofPage_eq_full_iff (page : Text) : (ofPage page).score = 100 ↔ (ofPage page).issues = [] := by
  have haccounted := fun s : Subject => s.report_accounted page
  have hscores := forall_subject.mp fun s => (haccounted s).score_le
  have hfives := forall_subject.mp fun s => (haccounted s).five_dvd_score
  have hfull : (ofPage page).issues = [] ↔ ∀ s : Subject, (s.report page).score = 100 := by
    simp only [(haccounted _).score_eq_full_iff]
    rw [issues_ofPage, forall_subject]
    simp [Subject.all]
  rw [hfull, forall_subject, score_ofPage]
  simp only [Subject.all, List.map_cons, List.map_nil, List.sum_cons, List.sum_nil]
  omega

/-- The floors of the reports are reached one by one: nothing is left of the audit only if nothing is left of any. -/
theorem score_ofPage_eq_zero_iff (page : Text) :
    (ofPage page).score = 0 ↔ ∀ s : Subject, (s.report page).score = 0 := by
  have hfives := forall_subject.mp fun s => (s.report_accounted page).five_dvd_score
  rw [forall_subject, score_ofPage]
  simp only [Subject.all, List.map_cons, List.map_nil, List.sum_cons, List.sum_nil]
  omega

/-- The mean lies between the lowest and the highest of the four scores. -/
theorem score_ofPage_between (page : Text) :
    (∃ s : Subject, (s.report page).score ≤ (ofPage page).score) ∧
      ∃ s : Subject, (ofPage page).score ≤ (s.report page).score := by
  constructor
  · apply Classical.byContradiction
    intro h
    have habove := forall_subject.mp fun s => Nat.lt_of_not_le fun hle => h ⟨s, hle⟩
    rw [score_ofPage] at habove
    simp only [Subject.all, List.map_cons, List.map_nil, List.sum_cons, List.sum_nil] at habove
    omega
  · apply Classical.byContradiction
    intro h
    have hbelow := forall_subject.mp fun s => Nat.lt_of_not_le fun hle => h ⟨s, hle⟩
    rw [score_ofPage] at hbelow
    simp only [Subject.all, List.map_cons, List.map_nil, List.sum_cons, List.sum_nil] at hbelow
    omega

theorem score_ofPage_le (page : Text) : (ofPage page).score ≤ 100 := by
  obtain ⟨s, hs⟩ := (score_ofPage_between page).2
  exact Nat.le_trans hs (s.report_accounted page).score_le

/-- The score and the verdict of an audit, and of each of its reports, are those that the issues give. -/
structure Accounted (page : Text) : Prop where
  reports : ∀ s : Subject, (s.report page).Accounted
  issues_eq : (ofPage page).issues = Subject.all.flatMap fun s => (s.report page).issues
  score_eq : (ofPage page).score = ((Subject.all.map fun s => (s.report page).score).sum + 2) / 4
  score_le : (ofPage page).score ≤ 100
  severity_eq : ∀ i ∈ (ofPage page).issues, i.severity = i.rule.severity
  errors_add_warnings : (ofPage page).errors + (ofPage page).warnings = (ofPage page).issues.length
  passed_iff : (ofPage page).passed = true ↔ (ofPage page).errors = 0
  passed_iff_reports : (ofPage page).passed = true ↔ ∀ s : Subject, (s.report page).passed = true
  score_eq_full_iff : (ofPage page).score = 100 ↔ (ofPage page).issues = []
  score_eq_zero_iff : (ofPage page).score = 0 ↔ ∀ s : Subject, (s.report page).score = 0
  score_between : (∃ s : Subject, (s.report page).score ≤ (ofPage page).score) ∧
    ∃ s : Subject, (ofPage page).score ≤ (s.report page).score

theorem ofPage_accounted (page : Text) : Accounted page where
  reports s := s.report_accounted page
  issues_eq := issues_ofPage page
  score_eq := score_ofPage page
  score_le := score_ofPage_le page
  severity_eq i _ := i.severity_eq
  errors_add_warnings := countOf_error_add_warning _
  passed_iff := not_any_error_iff _
  passed_iff_reports := passed_ofPage_iff page
  score_eq_full_iff := score_ofPage_eq_full_iff page
  score_eq_zero_iff := score_ofPage_eq_zero_iff page
  score_between := score_ofPage_between page

end Accessibility.Audit
