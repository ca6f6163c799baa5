import Accessibility.Proofs.Audit.Ledger
import Accessibility.Proofs.Markup.Seam
import Mathlib.Data.List.Infix

/-! # Where labels stand

Labels are gathered from the whole page before the inputs are judged one by one, so it makes no difference to an input
where its label stands. Two pieces of a page in which every bracket is closed can change places, and a piece without
inputs does nothing but settle the issues of those inputs that it has labels for. -/

namespace Accessibility

open List

open Text (Unaffected)

/-! ## Pages with closed brackets -/

/-- Every bracket that opens a tag is followed by one that closes it. -/
def IsClosed (page : Text) : Prop :=
  ∀ front rest, page = front ++ '<' :: rest → '>' ∈ rest

theorem isClosed_iff {page : Text} : IsClosed page ↔ ∀ t ∈ page.tails, t.head? = some '<' → '>' ∈ t := by
  constructor
  · intro h t ht hhead
    obtain ⟨front, hfront⟩ := (List.mem_tails t page).mp ht
    obtain ⟨rest, rfl⟩ := List.head?_eq_some_iff.mp hhead
    exact List.mem_cons_of_mem '<' (h front rest hfront.symm)
  · rintro h front rest rfl
    have hmem : '>' ∈ '<' :: rest := h _ ((List.mem_tails _ _).mpr (List.suffix_append front _)) rfl
    simpa using hmem

instance (page : Text) : Decidable (IsClosed page) :=
  decidable_of_iff _ isClosed_iff.symm

theorem Tag.recognize_of_ne {c : Char} (h : c ≠ '<') (name : TagName) (before : Option Char) (t : Text) :
    recognize name before (c :: t) = none := by
  simp [recognize, Opening.read?, h]

/-- A tag that begins in a closed page ends there. -/
theorem Tag.unaffected_of_isClosed {name : TagName} (hname : name.IsPlain) {front : Text} (h : IsClosed front)
    (behind : Text) : Unaffected (recognize name) none front behind := by
  intro passed coming hsplit hne
  obtain ⟨c, rest, rfl⟩ := List.exists_cons_of_ne_nil hne
  by_cases hc : c = '<'
  · subst hc
    exact recognize_append hname _ (List.mem_cons_of_mem '<' (h passed rest hsplit)) behind
  · rw [List.cons_append, recognize_of_ne hc, recognize_of_ne hc]

namespace Audit

/-! ## Issues -/

/-- What an issue says, apart from its message. -/
def Issue.facts (i : Issue) : Severity × Rule × Option Text × String :=
  (i.severity, i.rule, i.element, i.suggestion)

/-- The issue is that of an input without a label, and the page has a label for its identifier. -/
def Issue.IsSettledBy (page : Text) (i : Issue) : Prop :=
  i.rule = .inputUnlabelled ∧ ∃ input ∈ i.element, ∃ id ∈ Attribute.value? "id".toList input,
    ∃ label ∈ Tag.findAll .label page, Attribute.value? "for".toList label.raw = some id

instance (page : Text) (i : Issue) : Decidable (i.IsSettledBy page) :=
  inferInstanceAs (Decidable (_ ∧ _))

namespace Forms

section Joined

variable {front : Text} (h : IsClosed front) (behind : Text)
include h

theorem inputs_append : inputs (front ++ behind) = inputs front ++ inputs behind := by
  have hunaffected := Tag.unaffected_of_isClosed (TagName.isPlain_all .input (by decide)) h behind
  simp only [inputs, Tag.findAll_append_of_unaffected hunaffected, List.map_append, List.map_map]
  rfl

theorem labels_append : labels (front ++ behind) = labels front ++ labels behind := by
  have hunaffected := Tag.unaffected_of_isClosed (TagName.isPlain_all .label (by decide)) h behind
  simp only [labels, Tag.findAll_append_of_unaffected hunaffected, List.map_append, List.map_map]
  rfl

theorem targets_append : targets (front ++ behind) = targets front ++ targets behind := by
  rw [targets, labels_append h, List.filterMap_append, targets, targets]

end Joined

/-! ## Pieces that change places -/

/-- Only which identifiers have a label matters, not in which order the labels stand. -/
theorem found_congr {ts ts' : List Text} (h : ∀ id, id ∈ ts ↔ id ∈ ts') : found ts = found ts' := by
  have hcontains : ∀ id, ts.contains id = ts'.contains id := by
    intro id
    rw [Bool.eq_iff_iff, List.contains_iff_mem, List.contains_iff_mem, h]
  funext input
  simp only [found, hcontains]

/-- The number of an input is in the messages only. -/
theorem facts_found (ts : List Text) (input : Text) (m n : Nat) :
    (found ts (input, m)).map Issue.facts = (found ts (input, n)).map Issue.facts := by
  unfold found
  dsimp only
  cases Attribute.value? "id".toList input <;> simp only [apply_ite (List.map Issue.facts)] <;> rfl

theorem map_facts_issues (page : Text) :
    (issues page).map Issue.facts =
      (inputs page).flatMap fun input => (found (targets page) (input, 0)).map Issue.facts := by
  have hnumber : (fun p : Text × Nat => (found (targets page) p).map Issue.facts) =
      fun p => (found (targets page) (p.1, 0)).map Issue.facts :=
    funext fun (input, n) => facts_found _ input n 0
  calc (issues page).map Issue.facts
      = ((inputs page).zipIdx 1).flatMap fun p => (found (targets page) p).map Issue.facts := by
        rw [issues, List.map_flatMap]
    _ = (((inputs page).zipIdx 1).map Prod.fst).flatMap fun input =>
          (found (targets page) (input, 0)).map Issue.facts := by
        rw [hnumber, List.flatMap_map]
    _ = (inputs page).flatMap fun input => (found (targets page) (input, 0)).map Issue.facts := by
        rw [List.zipIdx_map_fst]

theorem facts_issues_perm {front behind : Text} (hfront : IsClosed front) (hbehind : IsClosed behind) :
    ((issues (front ++ behind)).map Issue.facts).Perm ((issues (behind ++ front)).map Issue.facts) := by
  have htargets : ∀ id, id ∈ targets (front ++ behind) ↔ id ∈ targets (behind ++ front) := by
    intro id
    rw [targets_append hfront, targets_append hbehind, List.mem_append, List.mem_append, or_comm]
  rw [map_facts_issues, map_facts_issues, inputs_append hfront, inputs_append hbehind, found_congr htargets]
  exact List.perm_append_comm.flatMap_right _

/-! ## Pieces without inputs -/

theorem mem_targets_iff {page id : Text} :
    id ∈ targets page ↔ ∃ label ∈ Tag.findAll .label page, Attribute.value? "for".toList label.raw = some id := by
  simp only [targets, labels, List.filterMap_map, List.mem_filterMap, Function.comp_apply]

theorem isSettledBy_iff {page source id : Text} (hid : Attribute.value? "id".toList source = some id) (number : Nat) :
    (Issue.inputUnlabelled number source id).IsSettledBy page ↔ id ∈ targets page := by
  rw [mem_targets_iff]
  constructor
  · rintro ⟨-, input, hinput, id', hid', hlabel⟩
    obtain rfl : source = input := Option.some.inj hinput
    obtain rfl : id = id' := Option.some.inj (hid.symm.trans hid')
    exact hlabel
  · intro hlabel
    exact ⟨rfl, source, rfl, id, hid, hlabel⟩

/-- An input without an identifier is no matter of labels. -/
theorem found_of_value?_eq_none {source : Text} (hid : Attribute.value? "id".toList source = none) (number : Nat)
    (ts : List Text) : found ts (source, number) = found [] (source, number) ∧
      ∀ i ∈ found ts (source, number), i.rule ≠ .inputUnlabelled := by
  unfold found
  dsimp only
  rw [hid]
  refine ⟨rfl, fun i hi => ?_⟩
  split at hi
  · exact absurd hi List.not_mem_nil
  · dsimp only at hi
    split at hi
    · rcases List.mem_pair.mp hi with rfl | rfl <;> simp [Issue.rule]
    · rw [List.mem_singleton.mp hi]
      simp [Issue.rule]

/-- More labels settle issues and change nothing else. -/
theorem found_append_targets (ts : List Text) (page : Text) (input : Text × Nat) :
    found (ts ++ targets page) input = (found ts input).filter fun i => ¬i.IsSettledBy page := by
  obtain ⟨source, number⟩ := input
  cases hid : Attribute.value? "id".toList source with
  | none =>
      obtain ⟨hfound, hrule⟩ := found_of_value?_eq_none hid number ts
      rw [(found_of_value?_eq_none hid number _).1, ← hfound, eq_comm, List.filter_eq_self]
      intro i hi
      rw [decide_eq_true_eq]
      exact fun hsettled => hrule i hi hsettled.1
  | some id =>
      simp only [found, hid, List.contains_iff_mem, List.mem_append]
      by_cases hhidden : isHidden source = true
      · rw [if_pos hhidden, if_pos hhidden, List.filter_nil]
      rw [if_neg hhidden, if_neg hhidden]
      by_cases hts : id ∈ ts
      · rw [if_pos (Or.inl hts), if_pos hts, List.filter_nil]
      rw [if_neg hts]
      by_cases hpage : id ∈ targets page
      · have hsettled := (isSettledBy_iff hid number).mpr hpage
        rw [if_pos (Or.inr hpage), List.filter_cons_of_neg (by rwa [decide_eq_true_eq, not_not]), List.filter_nil]
      · have hopen := mt (isSettledBy_iff hid number).mp hpage
        rw [if_neg (not_or.mpr ⟨hts, hpage⟩), List.filter_cons_of_pos (by rwa [decide_eq_true_eq]), List.filter_nil]

theorem issues_append_of_inputs_eq_nil {front behind : Text} (hfront : IsClosed front) (h : inputs behind = []) :
    issues (front ++ behind) = (issues front).filter fun i => ¬i.IsSettledBy behind := by
  rw [issues, inputs_append hfront, targets_append hfront, h, List.append_nil, issues, List.filter_flatMap]
  exact congrArg (List.flatMap · _) (funext (found_append_targets (targets front) behind))

/-! ## The report -/

/-- Two pieces of a page that may change places: verdict, score and counts stay the same, the issues say the same apart
from the numbers in their messages, and the counts are those of the pieces together. A second piece without inputs
takes from the issues of the first exactly those that its labels settle. -/
theorem report_wherever_labels_stand {front behind : Text} (hfront : IsClosed front) (hbehind : IsClosed behind) :
    ((report (front ++ behind)).passed = (report (behind ++ front)).passed ∧
      (report (front ++ behind)).score = (report (behind ++ front)).score ∧
      (report (front ++ behind)).counts = (report (behind ++ front)).counts ∧
      ((report (front ++ behind)).issues.map Issue.facts).Perm ((report (behind ++ front)).issues.map Issue.facts)) ∧
    (∃ m n m' n', (report front).counts = [("input_count", m), ("label_count", n)] ∧
      (report behind).counts = [("input_count", m'), ("label_count", n')] ∧
      (report (front ++ behind)).counts = [("input_count", m + m'), ("label_count", n + n')]) ∧
    (Tag.findAll .input behind = [] →
      (report (front ++ behind)).issues <+ (report front).issues ∧
      (report (front ++ behind)).issues = (report front).issues.filter fun i => ¬i.IsSettledBy behind) := by
  have hfacts := facts_issues_perm hfront hbehind
  have hrules : ((issues (front ++ behind)).map Issue.rule).Perm ((issues (behind ++ front)).map Issue.rule) := by
    have hsecond := hfacts.map fun facts => facts.2.1
    rwa [List.map_map, List.map_map] at hsecond
  simp only [report_eq, Report.ofIssues]
  refine ⟨⟨?_, ?_, ?_, hfacts⟩, ⟨_, _, _, _, rfl, rfl, ?_⟩, fun hnone => ?_⟩
  · rw [any_error_eq_of_perm hrules]
  · rw [charges_eq_of_perm hrules]
  · rw [inputs_append hfront, inputs_append hbehind, labels_append hfront, labels_append hbehind]
    simp only [List.length_append, Nat.add_comm]
  · rw [inputs_append hfront, labels_append hfront, List.length_append, List.length_append]
  · have hinputs : inputs behind = [] := by rw [inputs, hnone, List.map_nil]
    rw [issues_append_of_inputs_eq_nil hfront hinputs]
    exact ⟨List.filter_sublist, rfl⟩

/-- The second piece has a label for the second input; the first and the last keep their issues. -/
theorem report_wherever_labels_stand_second_input :
    ∃ front behind, front = "<input id='q'><input id=\"n\"><INPUT placeholder=''>".toList ∧
      behind = "> <label for='n'>".toList ∧ IsClosed front ∧ IsClosed behind ∧
      (report front).issues.map (·.rule) =
        [.inputUnlabelled, .inputUnlabelled, .inputUnidentified, .placeholderAsLabel] ∧
      (report (front ++ behind)).issues.map (·.message) =
        ["Input 1 has no associated label", "Input 3 missing id attribute", "Input 3 uses placeholder as label"] ∧
      (report (behind ++ front)).score = (report (front ++ behind)).score := by
  have hfront : IsClosed "<input id='q'><input id=\"n\"><INPUT placeholder=''>".toList := by
    decide +kernel
  have hbehind : IsClosed "> <label for='n'>".toList := by
    decide +kernel
  obtain ⟨⟨-, hscore, -⟩, -, hsettled⟩ := report_wherever_labels_stand hfront hbehind
  refine ⟨_, _, rfl, rfl, hfront, hbehind, by decide +kernel, ?_, hscore.symm⟩
  rw [(hsettled (by decide +kernel)).2]
  decide +kernel

end Forms

end Audit

end Accessibility
