import Accessibility.Proofs.Exercise.Faults
import Mathlib.Data.List.Perm.Subperm
import Mathlib.Data.List.Sort
import Mathlib.Data.Nat.Digits.Defs

/-! # Tab orders are permutations

The check of a tab order sorts the numbers that the page denotes and compares them with the first numbers from one on.
It therefore asks whether they are these numbers in any order, which is to say that they are distinct and none is below
one or above their count. -/

namespace Accessibility.Exercise

open List

/-! ## The numbers of a page -/

/-- Decimal digits of any script, the first of which weighs most, and perhaps a line feed behind them. -/
def Denotes (value : Text) (n : Nat) : Prop :=
  ∃ (run : Text) (digits : List Nat), (value = run ∨ value = run ++ ['\n']) ∧ run ≠ [] ∧
    run.map Text.digitValue? = digits.map some ∧ n = Nat.ofDigits 10 digits.reverse

/-- The numbers that values denote, in order. Values that denote none are passed over. -/
inductive Denoted : List Text → List Nat → Prop
  | nil : Denoted [] []
  | number {value : Text} {n : Nat} {values : List Text} {ns : List Nat} (h : Denotes value n)
      (hrest : Denoted values ns) : Denoted (value :: values) (n :: ns)
  | other {value : Text} {values : List Text} {ns : List Nat} (h : ∀ n, ¬Denotes value n)
      (hrest : Denoted values ns) : Denoted (value :: values) ns

theorem ofDigits_eq_ofDigits_reverse (digits : List Nat) :
    Numeral.ofDigits 10 digits = Nat.ofDigits 10 digits.reverse := by
  rw [Nat.ofDigits_eq_foldr, foldr_reverse, Numeral.ofDigits]
  simp only [Nat.cast_id, Nat.add_comm]

theorem map_digitValue?_eq_iff {run : Text} {digits : List Nat} :
    run.map Text.digitValue? = digits.map some ↔
      (∀ c ∈ run, Text.isDigit c = true) ∧ run.filterMap Text.digitValue? = digits := by
  induction run generalizing digits with
  | nil => cases digits <;> simp
  | cons c run ih =>
      cases hc : Text.digitValue? c with
      | none => cases digits <;> simp [Text.isDigit, hc]
      | some d => cases digits <;> simp [Text.isDigit, hc, ih, and_left_comm]

/-- The digits of a tab index are those of the number that its value denotes. -/
theorem denotes_iff {value : Text} {n : Nat} :
    Denotes value n ↔ ∃ run, tabIndexDigits? value = some run ∧
      Numeral.ofDigits 10 (run.filterMap Text.digitValue?) = n := by
  simp only [Denotes, tabIndexDigits?_eq_some_iff, map_digitValue?_eq_iff, ofDigits_eq_ofDigits_reverse]
  constructor
  · rintro ⟨run, digits, hvalue, hne, ⟨hdigits, rfl⟩, rfl⟩
    exact ⟨run, ⟨hvalue, hne, hdigits⟩, rfl⟩
  · rintro ⟨run, ⟨hvalue, hne, hdigits⟩, rfl⟩
    exact ⟨run, _, hvalue, hne, ⟨hdigits, rfl⟩, rfl⟩

theorem Denotes.unique {value : Text} {n n' : Nat} (h : Denotes value n) (h' : Denotes value n') : n = n' := by
  obtain ⟨run, hrun, rfl⟩ := denotes_iff.mp h
  obtain ⟨run', hrun', rfl⟩ := denotes_iff.mp h'
  rw [Option.some.inj (hrun.symm.trans hrun')]

theorem Denoted.unique {values : List Text} {ns ns' : List Nat} (h : Denoted values ns) (h' : Denoted values ns') :
    ns = ns' := by
  induction h generalizing ns' with
  | nil =>
      cases h'
      rfl
  | @number value n _ _ hn _ ih =>
      cases h' with
      | number hn' hrest => rw [hn.unique hn', ih hrest]
      | other hnone _ => exact absurd hn (hnone n)
  | other hnone _ ih =>
      cases h' with
      | number hn' _ => exact absurd hn' (hnone _)
      | other _ hrest => exact ih hrest

/-- Where no number is overlong, those that are read are those that the values denote. -/
theorem denoted_of_mapM {values : List Text} {ns : List Nat}
    (h : (values.filterMap tabIndexDigits?).mapM Numeral.readRun = .ok ns) : Denoted values ns := by
  induction values generalizing ns with
  | nil =>
      cases h
      exact .nil
  | cons value values ih =>
      cases hdigits : tabIndexDigits? value with
      | none =>
          rw [filterMap_cons_none hdigits] at h
          refine .other (fun n hn => ?_) (ih h)
          obtain ⟨run, hrun, -⟩ := denotes_iff.mp hn
          rw [hdigits] at hrun
          contradiction
      | some run =>
          rw [filterMap_cons_some hdigits] at h
          obtain ⟨n, rest, hread, hrest, rfl⟩ := exists_of_mapM_cons_eq_ok h
          exact .number (denotes_iff.mpr ⟨run, hdigits, Numeral.readRun_eq_ok hread⟩) (ih hrest)

/-! ## The first numbers in any order -/

theorem isTabOrder_iff_perm {ns : List Nat} : isTabOrder ns = true ↔ ns ~ range' 1 ns.length := by
  rw [isTabOrder, beq_iff_eq]
  constructor
  · intro hsorted
    exact (mergeSort_perm ns _).symm.trans (.of_eq hsorted)
  · intro hperm
    exact ((mergeSort_perm ns _).trans hperm).eq_of_sortedLE sortedLE_mergeSort (sortedLE_range' 1 ns.length 1)

/-- Distinct numbers among as many as they are themselves are all of these. -/
theorem perm_range'_iff {ns : List Nat} :
    ns ~ range' 1 ns.length ↔ ns.Nodup ∧ ∀ n ∈ ns, 1 ≤ n ∧ n ≤ ns.length := by
  have hmem : ∀ n, n ∈ range' 1 ns.length ↔ 1 ≤ n ∧ n ≤ ns.length := by
    intro n
    rw [mem_range'_1]
    omega
  constructor
  · intro hperm
    exact ⟨hperm.nodup_iff.mpr nodup_range', fun n hn => (hmem n).mp (hperm.mem_iff.mp hn)⟩
  · rintro ⟨hnodup, hbounds⟩
    have hsub : ns ⊆ range' 1 ns.length := fun n hn => (hmem n).mpr (hbounds n hn)
    exact (hnodup.subperm hsub).perm_of_length_le (Nat.le_of_eq length_range')

theorem isTabOrder_eq_of_perm {ns ns' : List Nat} (h : ns ~ ns') : isTabOrder ns = isTabOrder ns' := by
  rw [Bool.eq_iff_iff, isTabOrder_iff_perm, isTabOrder_iff_perm, h.length_eq]
  exact ⟨h.symm.trans, h.trans⟩

/-! ## The verdict -/

theorem exists_denoted_of_tabOrder {page : Text} {v : Verdict} (h : tabOrder page = .ok v) :
    ∃ ns, tabIndices page = .ok ns ∧ Denoted (Attribute.values "tabindex".toList page) ns := by
  cases hindices : tabIndices page with
  | error fault =>
      rw [tabOrder, hindices] at h
      cases h
  | ok ns => exact ⟨ns, rfl, denoted_of_mapM hindices⟩

theorem tabOrder_passed {page : Text} {v : Verdict} {ns : List Nat} (h : tabOrder page = .ok v)
    (hindices : tabIndices page = .ok ns) :
    v.passed = isTabOrder ns ∧
      (v.passed = true → v.details = [s!"Found {ns.length} elements with proper tab order"]) := by
  rw [tabOrder, hindices] at h
  change (if isTabOrder ns = true then Except.ok _ else Except.ok _) = Except.ok v at h
  by_cases horder : isTabOrder ns = true
  · rw [if_pos horder] at h
    cases h
    exact ⟨horder.symm, fun _ => rfl⟩
  · rw [if_neg horder] at h
    cases h
    exact ⟨(Bool.eq_false_iff.mpr horder).symm, fun hpassed => by contradiction⟩

/-- A verdict tells how many numbers there are and whether they are in order, and no more. -/
theorem tabOrder_eq_of_perm {page page' : Text} {ns ns' : List Nat} (hindices : tabIndices page = .ok ns)
    (hindices' : tabIndices page' = .ok ns') (h : ns ~ ns') : tabOrder page = tabOrder page' := by
  rw [tabOrder, tabOrder, hindices, hindices']
  dsimp only [bind, Except.bind]
  rw [isTabOrder_eq_of_perm h, h.length_eq]

/-- A tab order passes exactly when the numbers of the page are the first ones from one on in any order, that is, when
they are distinct and none is below one or above their count. It reports their count, and the order in which they stand
on the page makes no difference. -/
theorem tabOrder_passed_iff_perm {page : Text} {v : Verdict}
    (h : verify page (.ofValue (.text "tab-order".toList)) = .ok v) :
    ∃ ns, Denoted (Attribute.values "tabindex".toList page) ns ∧
      (∀ other, Denoted (Attribute.values "tabindex".toList page) other → other = ns) ∧
      (v.passed = true ↔ ns ~ range' 1 ns.length) ∧
      (v.passed = true ↔ ns.Nodup ∧ ∀ n ∈ ns, 1 ≤ n ∧ n ≤ ns.length) ∧
      (v.passed = true → v.details = [s!"Found {ns.length} elements with proper tab order"]) ∧
      ∀ page' v' ns', verify page' (.ofValue (.text "tab-order".toList)) = .ok v' →
        Denoted (Attribute.values "tabindex".toList page') ns' → ns' ~ ns → v' = v := by
  change tabOrder page = .ok v at h
  obtain ⟨ns, hindices, hdenoted⟩ := exists_denoted_of_tabOrder h
  obtain ⟨hpassed, hdetails⟩ := tabOrder_passed h hindices
  refine ⟨ns, hdenoted, fun other hother => hother.unique hdenoted, ?_, ?_, hdetails, ?_⟩
  · rw [hpassed, isTabOrder_iff_perm]
  · rw [hpassed, isTabOrder_iff_perm, perm_range'_iff]
  · intro page' v' ns' h' hdenoted' hperm
    change tabOrder page' = .ok v' at h'
    obtain ⟨read, hindices', hread⟩ := exists_denoted_of_tabOrder h'
    obtain rfl : ns' = read := hdenoted'.unique hread
    rw [tabOrder_eq_of_perm hindices' hindices hperm, h] at h'
    exact (Except.ok.inj h').symm

/-- Values in both kinds of quotes, with a leading zero and a line feed, and two that denote nothing. The other page
writes the same numbers the other way round and one of them in Arabic digits. -/
theorem tabOrder_passed_iff_perm_second_first :
    ∃ page v, page = "<a tabindex='2'><b TabIndex = \"01\n\"><c tabindex=' 3'><d tabindex='-1'>".toList ∧
      verify page (.ofValue (.text "tab-order".toList)) = .ok v ∧ v.passed = true ∧
      v.details = ["Found 2 elements with proper tab order"] ∧
      ∀ v', verify "<b tabindex='\u0661'><a tabindex='2'>".toList (.ofValue (.text "tab-order".toList)) = .ok v' →
        v' = v := by
  have hindices : tabIndices "<a tabindex='2'><b TabIndex = \"01\n\"><c tabindex=' 3'><d tabindex='-1'>".toList =
      .ok [2, 1] := rfl
  obtain ⟨v, hv⟩ := exists_tabOrder_of_tabIndices hindices
  obtain ⟨ns, -, hunique, -, hbounds, hdetails, hsame⟩ := tabOrder_passed_iff_perm hv
  obtain rfl : [2, 1] = ns := hunique _ (denoted_of_mapM hindices)
  have hpassed : v.passed = true := hbounds.mpr (by decide)
  exact ⟨_, v, rfl, hv, hpassed, hdetails hpassed,
    fun v' h' => hsame _ v' [1, 2] h' (denoted_of_mapM rfl) (.swap 2 1 [])⟩

end Accessibility.Exercise
