import Accessibility.Proofs.Exercise.Outline

/-! # Outlines without holes

The exercise on headings compares each level with the one before it only. Since levels go down one at a time, whatever
lies under the top heading has headings of all levels between the two. -/

namespace Accessibility.Exercise

/-- No level is more than one below the level before it. -/
def Unbroken (levels : List Nat) : Prop :=
  ∀ i above below, levels[i]? = some above → levels[i + 1]? = some below → below ≤ above + 1

theorem skips_eq_false_iff {levels : List Nat} : skips levels = false ↔ Unbroken levels := by
  have hpair : ∀ i above below, (levels.zip levels.tail)[i]? = some (above, below) ↔
      levels[i]? = some above ∧ levels[i + 1]? = some below := by
    intro i above below
    rw [List.getElem?_zip_eq_some, List.getElem?_tail]
  simp only [skips, List.any_eq_false, decide_eq_true_eq, Nat.not_lt]
  constructor
  · intro h i above below habove hbelow
    exact h (above, below) (List.mem_of_getElem? ((hpair i above below).mpr ⟨habove, hbelow⟩))
  · rintro h ⟨above, below⟩ hmem
    obtain ⟨i, hi⟩ := List.mem_iff_getElem?.mp hmem
    obtain ⟨habove, hbelow⟩ := (hpair i above below).mp hi
    exact h i above below habove hbelow

/-- By induction on the later place: a level that the one before it has not reached yet is reached by a step of one. -/
theorem Unbroken.exists_between {levels : List Nat} (h : Unbroken levels) {i j k first last : Nat}
    (hi : levels[i]? = some first) (hj : levels[j]? = some last) (hij : i ≤ j) (hfirst : first ≤ k) (hlast : k ≤ last) :
    ∃ m, i ≤ m ∧ m ≤ j ∧ levels[m]? = some k := by
  induction j, hij using Nat.le_induction generalizing last with
  | base =>
      obtain rfl : first = last := Option.some.inj (hi.symm.trans hj)
      exact ⟨i, Nat.le_refl i, Nat.le_refl i, Nat.le_antisymm hfirst hlast ▸ hi⟩
  | succ j hij ih =>
      have hlt : j < levels.length := Nat.lt_of_succ_lt (List.getElem?_eq_some_iff.mp hj).1
      have hbefore := List.getElem?_eq_getElem hlt
      by_cases hk : k ≤ levels[j]
      · obtain ⟨m, him, hmj, hm⟩ := ih hbefore hk
        exact ⟨m, him, Nat.le_succ_of_le hmj, hm⟩
      · have hstep := h j _ _ hbefore hj
        obtain rfl : k = last := by omega
        exact ⟨j + 1, Nat.le_succ_of_le hij, Nat.le_refl _, hj⟩

theorem map_level?_findAll (page : Text) :
    (Tag.findAll .heading page).map Tag.level? = (levels page).map some := by
  rw [levels_eq, List.map_map]
  apply List.map_congr_left
  intro tag htag
  obtain ⟨level, hlevel, -, -⟩ := Tag.level_of_mem_findAll htag
  rw [Function.comp_apply, hlevel, Option.getD_some]

/-- An outline passes when it has one top heading and never goes down by more than one level. Between the top heading
and any heading behind it there are then headings of all levels in between, wherever on the page the top heading is. -/
theorem passed_outline_has_no_holes (page : Text) :
    ∃ (v : Verdict) (ls : List Nat), verify page (.ofValue (.text "heading".toList)) = .ok v ∧
      (Tag.findAll .heading page).map Tag.level? = ls.map some ∧
      (v.passed = true ↔ ls.count 1 = 1 ∧ Unbroken ls) ∧
      (v.passed = true → ∀ i j level : Nat, ls[i]? = some 1 → ls[j]? = some level → i ≤ j →
        ∀ k, 1 ≤ k → k ≤ level → ∃ m, i ≤ m ∧ m ≤ j ∧ ls[m]? = some k) := by
  refine ⟨heading page, levels page, rfl, map_level?_findAll page, ?_, ?_⟩
  · rw [heading_passed_iff, skips_eq_false_iff]
  · intro hpassed i j level hi hj hij k hk hlevel
    have hunbroken := skips_eq_false_iff.mp ((heading_passed_iff page).mp hpassed).2
    exact hunbroken.exists_between hi hj hij hk hlevel

/-- The top heading comes second, and the outline comes up again before it goes down to the fourth level. -/
theorem passed_outline_has_no_holes_fourth_level :
    ∃ (page : Text) (ls : List Nat), page = "<h2>A<h1>B<h2>C<h3>D<h2>E<h3>F<h4>G".toList ∧
      (Tag.findAll .heading page).map Tag.level? = ls.map some ∧ ls[1]? = some 1 ∧ ls[6]? = some 4 ∧
      ∃ m, 1 ≤ m ∧ m ≤ 6 ∧ ls[m]? = some 3 := by
  obtain ⟨v, ls, hv, hls, -, hholes⟩ := passed_outline_has_no_holes "<h2>A<h1>B<h2>C<h3>D<h2>E<h3>F<h4>G".toList
  have hlevels : ls = [2, 1, 2, 3, 2, 3, 4] := by
    refine List.map_injective_iff.mpr (Option.some_injective Nat) (hls.symm.trans ?_)
    decide +kernel
  have hpassed : v.passed = true := by
    obtain rfl := Except.ok.inj hv
    decide +kernel
  subst hlevels
  exact ⟨_, _, rfl, hls, rfl, rfl, hholes hpassed 1 6 4 rfl rfl (by decide) 3 (by decide) (by decide)⟩

end Accessibility.Exercise
