import Accessibility.Proofs.Audit.Composition
import Accessibility.Proofs.Audit.Labels
import Accessibility.Proofs.Number.Numeral

/-! # The numbers of images and inputs

Images and inputs are counted from one as they stand on the page, and every message about one of them begins with its
number. The issues of a report come in the order of these numbers and the issues of one number are those of the image
or the input that has it, so that nothing is passed over, judged twice or entered under the number of another. -/

namespace Accessibility.Audit

open List

/-! ## Numbers in messages -/

/-- The message of the issue begins with what the issue is about, a number and a space. -/
def Issue.IsAbout (thing : String) (number : Nat) (i : Issue) : Prop :=
  (thing ++ toString number ++ " ").toList <+: i.message.toList

instance (thing : String) (number : Nat) (i : Issue) : Decidable (i.IsAbout thing number) :=
  inferInstanceAs (Decidable (_ <+: _))

theorem Issue.toList_isAbout (thing : String) (number : Nat) :
    (thing ++ toString number ++ " ").toList = thing.toList ++ (Nat.toDigits 10 number ++ [' ']) := by
  rw [String.toList_append, String.toList_append, Nat.toString_eq_repr, Nat.toList_repr, append_assoc]
  rfl

theorem Issue.isAbout_of_message {thing words : String} {number : Nat} {i : Issue}
    (h : i.message = thing ++ toString number ++ words) (hwords : words.toList.head? = some ' ') :
    i.IsAbout thing number := by
  obtain ⟨rest, hrest⟩ := head?_eq_some_iff.mp hwords
  refine ⟨rest, ?_⟩
  simp only [h, String.toList_append, hrest, append_assoc]
  rfl

/-- A message has one number only: its digits end at the first space. -/
theorem Issue.IsAbout.unique {thing : String} {m n : Nat} {i : Issue} (hm : i.IsAbout thing m)
    (hn : i.IsAbout thing n) : m = n := by
  have hdigits : ∀ k, ' ' ∉ Nat.toDigits 10 k :=
    fun k hspace => absurd (Numeral.isDigit_of_mem_toDigits ' ' hspace) (by decide)
  obtain ⟨rest, hrest⟩ := hm
  obtain ⟨rest', hrest'⟩ := hn
  have heq := hrest.trans hrest'.symm
  simp only [toList_isAbout, append_assoc, singleton_append, append_cancel_left_eq] at heq
  have hsame := (Text.append_cons_inj (hdigits m) (hdigits n) heq).1
  rw [← Numeral.ofDigits_toDigits m, hsame, Numeral.ofDigits_toDigits]

/-! ## Reports on numbered things -/

/-- Every issue is about one of the tags and gives its number, counted from one, and the issues are in the order of the
numbers. -/
structure Numbered (thing : String) (tags : List Tag) (issues : List Issue) : Prop where
  tag_eq : ∀ i ∈ issues, ∃ k tag, i.IsAbout thing (k + 1) ∧ tags[k]? = some tag ∧ i.element = some tag.raw
  unique : ∀ i ∈ issues, ∀ m n, i.IsAbout thing m → i.IsAbout thing n → m = n
  in_order : issues.Pairwise fun i j => ∀ m n, i.IsAbout thing m → j.IsAbout thing n → m ≤ n

section Things

variable {thing : String} {found : Text × Nat → List Issue}
  (hfound : ∀ source number, ∀ i ∈ found (source, number), i.IsAbout thing number ∧ i.element = some source)
include hfound

/-- What is found of the things from a number on is about later numbers than all before. -/
theorem isAbout_of_mem_flatMap {sources : List Text} {start : Nat} {i : Issue}
    (h : i ∈ (sources.zipIdx start).flatMap found) :
    ∃ k source, i.IsAbout thing (start + k) ∧ sources[k]? = some source ∧ i.element = some source := by
  obtain ⟨⟨source, number⟩, hmem, hi⟩ := mem_flatMap.mp h
  obtain ⟨hle, hsource⟩ := mk_mem_zipIdx_iff_le_and_getElem?_sub.mp hmem
  obtain ⟨habout, helement⟩ := hfound source number i hi
  exact ⟨number - start, source, by rwa [Nat.add_sub_cancel' hle], hsource, helement⟩

/-- The issues of a number are those of the thing that has it. By induction on the things, which are counted on. -/
theorem filter_isAbout (sources : List Text) (start k : Nat) :
    ((sources.zipIdx start).flatMap found).filter (·.IsAbout thing (start + k)) =
      sources[k]?.elim [] fun source => found (source, start + k) := by
  induction sources generalizing start k with
  | nil => rfl
  | cons source sources ih =>
      have hhere : ∀ n, (found (source, start)).filter (·.IsAbout thing n) =
          if n = start then found (source, start) else [] := by
        intro n
        split
        · rename_i heq
          rw [heq, filter_eq_self]
          exact fun i hi => decide_eq_true (hfound source start i hi).1
        · rename_i hne
          rw [filter_eq_nil_iff]
          exact fun i hi habout => hne ((of_decide_eq_true habout).unique (hfound source start i hi).1)
      rw [zipIdx_cons, flatMap_cons, filter_append, hhere]
      cases k with
      | zero =>
          have hrest : ((sources.zipIdx (start + 1)).flatMap found).filter (·.IsAbout thing (start + 0)) = [] := by
            rw [filter_eq_nil_iff]
            intro i hi habout
            obtain ⟨k, -, hk, -⟩ := isAbout_of_mem_flatMap hfound hi
            have heq := hk.unique (of_decide_eq_true habout)
            omega
          rw [hrest, append_nil, if_pos (Nat.add_zero start)]
          rfl
      | succ k =>
          have hnext : start + (k + 1) = start + 1 + k := by omega
          rw [if_neg (by omega), nil_append, hnext, ih]
          rfl

theorem pairwise_isAbout {r : Nat → Nat → Prop} (hlt : ∀ {m n}, m < n → r m n)
    (hsame : ∀ source number, (found (source, number)).Pairwise fun _ _ => r number number) (sources : List Text)
    (start : Nat) :
    ((sources.zipIdx start).flatMap found).Pairwise fun i j =>
      ∀ m n, i.IsAbout thing m → j.IsAbout thing n → r m n := by
  have hnumbers : (sources.zipIdx start).Pairwise fun p q => p.2 < q.2 := by
    rw [← pairwise_map (f := Prod.snd), zipIdx_map_snd]
    exact pairwise_lt_range'
  refine pairwise_flatMap.mpr ⟨?_, hnumbers.imp ?_⟩
  · rintro ⟨source, number⟩ -
    refine (hsame source number).imp_of_mem fun hi hj hr m n hm hn => ?_
    rwa [hm.unique (hfound source number _ hi).1, hn.unique (hfound source number _ hj).1]
  · rintro ⟨source, number⟩ ⟨source', number'⟩ hnumber i hi j hj m n hm hn
    rw [hm.unique (hfound source number i hi).1, hn.unique (hfound source' number' j hj).1]
    exact hlt hnumber

/-- A loop over tags that enters issues under the number of the tag makes a numbered report. -/
theorem numbered_of_found (tags : List Tag) : Numbered thing tags (((tags.map (·.raw)).zipIdx 1).flatMap found) where
  tag_eq := by
    intro i hi
    obtain ⟨k, source, habout, hsource, helement⟩ := isAbout_of_mem_flatMap hfound hi
    rw [getElem?_map, Option.map_eq_some_iff] at hsource
    obtain ⟨tag, htag, rfl⟩ := hsource
    exact ⟨k, tag, by rwa [Nat.add_comm], htag, helement⟩
  unique _ _ _ _ := Issue.IsAbout.unique
  in_order := pairwise_isAbout hfound Nat.le_of_lt (fun _ _ => pairwise_of_forall fun _ _ => Nat.le_refl _) _ 1

theorem countP_isAbout {tags : List Tag} {k : Nat} {tag : Tag} (h : tags[k]? = some tag) :
    (((tags.map (·.raw)).zipIdx 1).flatMap found).countP (·.IsAbout thing (k + 1)) =
      (found (tag.raw, k + 1)).length := by
  rw [countP_eq_length_filter, Nat.add_comm k 1, filter_isAbout hfound, getElem?_map, h]
  rfl

end Things

/-! ## Images -/

namespace Images

/-- The image has an alternative of some length that says more than that there is an image. -/
def IsDescribed (image : Text) : Prop :=
  ∃ alternative, Attribute.value? "alt".toList image = some alternative ∧ 3 ≤ alternative.length ∧
    ¬"image".toList <:+: Text.lower alternative ∧ ¬"picture".toList <:+: Text.lower alternative

theorem isAbout_of_mem_found (image : Text) (number : Nat) :
    ∀ i ∈ found (image, number), i.IsAbout "Image " number ∧ i.element = some image := by
  intro i hi
  rcases eq_of_mem_found hi with rfl | rfl | rfl | rfl
  all_goals exact ⟨Issue.isAbout_of_message rfl rfl, rfl⟩

theorem length_found_le (image : Text × Nat) : (found image).length ≤ 1 := by
  unfold found
  repeat' split
  all_goals simp

theorem pairwise_found (r : Issue → Issue → Prop) (image : Text × Nat) : (found image).Pairwise r := by
  have hlength := length_found_le image
  cases hfound : found image with
  | nil => exact Pairwise.nil
  | cons i rest =>
      rw [hfound, length_cons] at hlength
      rw [length_eq_zero_iff.mp (Nat.le_zero.mp (Nat.le_of_succ_le_succ hlength))]
      exact pairwise_singleton r i

theorem isRedundant_eq_false_iff {alternative : Text} : isRedundant alternative = false ↔
    ¬"image".toList <:+: Text.lower alternative ∧ ¬"picture".toList <:+: Text.lower alternative := by
  simp only [isRedundant, redundantWords, any_cons, any_nil, Bool.or_false, Bool.or_eq_false_iff,
    ← Text.mentions_iff, Bool.not_eq_true]

theorem found_eq_nil_iff {image : Text} {number : Nat} : found (image, number) = [] ↔ IsDescribed image := by
  unfold found IsDescribed
  dsimp only
  cases Attribute.value? "alt".toList image with
  | none => simp
  | some alternative =>
      simp only [Option.some.injEq, exists_eq_left', ← isRedundant_eq_false_iff]
      by_cases hlength : 3 ≤ alternative.length
      · have hempty : alternative.isEmpty = false := by
          cases alternative with
          | nil => simp at hlength
          | cons c rest => rfl
        have hshort : ¬alternative.length < leastLength := Nat.not_lt.mpr hlength
        rw [hempty, if_neg Bool.false_ne_true, if_neg hshort]
        cases isRedundant alternative <;> simp [hlength]
      · have hshort : alternative.length < leastLength := Nat.lt_of_not_le hlength
        cases alternative.isEmpty <;> simp [hshort, hlength]

end Images

/-! ## Inputs -/

namespace Forms

/-- The kind of the input is hidden, whatever the case and the blanks around it. -/
def IsHidden (input : Text) : Prop :=
  ∃ kind, Attribute.value? "type".toList input = some kind ∧ Text.lower (Text.strip kind) = "hidden".toList

/-- The page has a label for the identifier of the input. -/
def IsLabelled (page input : Text) : Prop :=
  ∃ id, Attribute.value? "id".toList input = some id ∧
    ∃ label ∈ Tag.findAll .label page, Attribute.value? "for".toList label.raw = some id

theorem isHidden_iff {input : Text} : isHidden input = true ↔ IsHidden input := by
  unfold isHidden IsHidden
  cases Attribute.value? "type".toList input <;> simp

theorem isLabelled_iff {page input id : Text} (hid : Attribute.value? "id".toList input = some id) :
    IsLabelled page input ↔ id ∈ targets page := by
  rw [mem_targets_iff]
  constructor
  · rintro ⟨id', hid', hlabel⟩
    obtain rfl : id = id' := Option.some.inj (hid.symm.trans hid')
    exact hlabel
  · intro hlabel
    exact ⟨id, hid, hlabel⟩

theorem not_isLabelled {page input : Text} (hid : Attribute.value? "id".toList input = none) :
    ¬IsLabelled page input := by
  rintro ⟨id, hid', -⟩
  rw [hid] at hid'
  contradiction

section Found

variable {ts : List Text} {input : Text} {number : Nat}

theorem found_of_isHidden (h : isHidden input = true) : found ts (input, number) = [] :=
  if_pos h

variable (h : isHidden input = false)
include h

theorem found_of_identified {id : Text} (hid : Attribute.value? "id".toList input = some id) :
    found ts (input, number) = if id ∈ ts then [] else [.inputUnlabelled number input id] := by
  simp only [found, h, hid, Bool.false_eq_true, if_false, contains_iff_mem]

theorem found_of_unidentified (hid : Attribute.value? "id".toList input = none) :
    found ts (input, number) = .inputUnidentified number input ::
      if (Attribute.value? "placeholder".toList input).isSome then [.placeholderAsLabel number input] else [] := by
  simp only [found, h, hid, Bool.false_eq_true, if_false]
  split <;> rfl

end Found

theorem isAbout_of_mem_found (ts : List Text) (input : Text) (number : Nat) :
    ∀ i ∈ found ts (input, number), i.IsAbout "Input " number ∧ i.element = some input := by
  intro i hi
  have hcases : i = .inputUnidentified number input ∨ (∃ id, i = .inputUnlabelled number input id) ∨
      i = .placeholderAsLabel number input := by
    cases hhidden : isHidden input with
    | true =>
        rw [found_of_isHidden hhidden] at hi
        contradiction
    | false =>
        cases hid : Attribute.value? "id".toList input with
        | some id =>
            rw [found_of_identified hhidden hid, mem_ite_nil_left] at hi
            exact .inr (.inl ⟨id, mem_singleton.mp hi.2⟩)
        | none =>
            rw [found_of_unidentified hhidden hid, mem_cons, mem_ite_nil_right] at hi
            exact hi.imp_right fun h => .inr (mem_singleton.mp h.2)
  rcases hcases with rfl | ⟨id, rfl⟩ | rfl
  all_goals exact ⟨Issue.isAbout_of_message rfl rfl, rfl⟩

theorem found_targets_eq_nil_iff {page input : Text} {number : Nat} :
    found (targets page) (input, number) = [] ↔ IsHidden input ∨ IsLabelled page input := by
  rw [← isHidden_iff]
  cases hhidden : isHidden input with
  | true => simp only [found_of_isHidden hhidden, true_or]
  | false =>
      cases hid : Attribute.value? "id".toList input with
      | some id =>
          rw [found_of_identified hhidden hid, isLabelled_iff hid]
          simp
      | none =>
          rw [found_of_unidentified hhidden hid]
          simp only [reduceCtorEq, Bool.false_eq_true, not_isLabelled hid, or_false]

theorem length_found_eq_two_iff {ts : List Text} {input : Text} {number : Nat} :
    (found ts (input, number)).length = 2 ↔ ¬IsHidden input ∧ Attribute.value? "id".toList input = none ∧
      Attribute.value? "placeholder".toList input ≠ none := by
  rw [← isHidden_iff]
  cases hhidden : isHidden input with
  | true => simp only [found_of_isHidden hhidden, length_nil, OfNat.zero_ne_ofNat, not_true, false_and]
  | false =>
      cases hid : Attribute.value? "id".toList input with
      | some id =>
          rw [found_of_identified hhidden hid]
          split <;> simp
      | none =>
          rw [found_of_unidentified hhidden hid]
          cases Attribute.value? "placeholder".toList input <;> simp

/-- An input is reported as an error when it has an identifier and no label. -/
theorem exists_error_found_iff {page input : Text} {number : Nat} :
    (∃ i ∈ found (targets page) (input, number), i.severity = .error) ↔
      ¬IsHidden input ∧ Attribute.value? "id".toList input ≠ none ∧ ¬IsLabelled page input := by
  rw [← isHidden_iff]
  cases hhidden : isHidden input with
  | true => simp [found_of_isHidden hhidden]
  | false =>
      cases hid : Attribute.value? "id".toList input with
      | some id =>
          rw [found_of_identified hhidden hid, isLabelled_iff hid]
          split <;> simp_all [Issue.severity]
      | none =>
          rw [found_of_unidentified hhidden hid]
          cases Attribute.value? "placeholder".toList input <;> simp [Issue.severity]

theorem report_passed_iff (page : Text) :
    (report page).passed = true ↔ ∀ tag ∈ Tag.findAll .input page, ¬IsHidden tag.raw →
      Attribute.value? "id".toList tag.raw ≠ none → IsLabelled page tag.raw := by
  have herror : (report page).passed = true ↔ ¬∃ i ∈ issues page, i.severity = .error := by
    simp [report_eq, Report.ofIssues]
  rw [herror]
  constructor
  · intro hnone tag htag hvisible hid
    refine Classical.byContradiction fun hlabel => hnone ?_
    obtain ⟨k, hk⟩ := mem_iff_getElem?.mp (mem_map_of_mem (f := Tag.raw) htag)
    obtain ⟨i, hi, hsevere⟩ : ∃ i ∈ found (targets page) (tag.raw, k + 1), i.severity = .error :=
      exists_error_found_iff.mpr ⟨hvisible, hid, hlabel⟩
    have hmem := mk_mem_zipIdx_iff_le_and_getElem?_sub.mpr ⟨Nat.le_add_left 1 k, hk⟩
    exact ⟨i, mem_flatMap.mpr ⟨_, hmem, hi⟩, hsevere⟩
  · rintro hall ⟨i, hi, hsevere⟩
    obtain ⟨⟨input, number⟩, hmem, hfound⟩ := mem_flatMap.mp hi
    obtain ⟨tag, htag, rfl⟩ := mem_map.mp (fst_mem_of_mem_zipIdx hmem)
    obtain ⟨hvisible, hid, hlabel⟩ := exists_error_found_iff.mp ⟨i, hfound, hsevere⟩
    exact hlabel (hall tag htag hvisible hid)

end Forms

/-! ## Both reports -/

/-- Every image and every input is accounted for once, under its own number. An image has at most one issue, and none
exactly when it is described. A hidden input has no issue and keeps its number; any other has none exactly when it is
labelled, and two exactly when a placeholder stands in the place of its identifier. So the report on forms fails only
for inputs with an identifier that no label is for. -/
theorem issues_by_number (page : Text) :
    (Numbered "Image " (Tag.findAll .img page) (Images.report page).issues ∧
      ((Images.report page).issues.Pairwise fun i j =>
        ∀ m n, i.IsAbout "Image " m → j.IsAbout "Image " n → m < n) ∧
      ∀ k tag, (Tag.findAll .img page)[k]? = some tag →
        (Images.report page).issues.countP (·.IsAbout "Image " (k + 1)) ≤ 1 ∧
        ((Images.report page).issues.countP (·.IsAbout "Image " (k + 1)) = 0 ↔ Images.IsDescribed tag.raw)) ∧
    (Numbered "Input " (Tag.findAll .input page) (Forms.report page).issues ∧
      ∀ k tag, (Tag.findAll .input page)[k]? = some tag →
        ((Forms.report page).issues.countP (·.IsAbout "Input " (k + 1)) = 0 ↔
          Forms.IsHidden tag.raw ∨ Forms.IsLabelled page tag.raw) ∧
        ((Forms.report page).issues.countP (·.IsAbout "Input " (k + 1)) = 2 ↔
          ¬Forms.IsHidden tag.raw ∧ Attribute.value? "id".toList tag.raw = none ∧
            Attribute.value? "placeholder".toList tag.raw ≠ none)) ∧
    ((Forms.report page).passed = true ↔ ∀ tag ∈ Tag.findAll .input page, ¬Forms.IsHidden tag.raw →
      Attribute.value? "id".toList tag.raw ≠ none → Forms.IsLabelled page tag.raw) := by
  refine ⟨?_, ?_, Forms.report_passed_iff page⟩
  · have hfound := Images.isAbout_of_mem_found
    have hsame : ∀ source number, (Images.found (source, number)).Pairwise fun _ _ => number < number :=
      fun source number => Images.pairwise_found _ (source, number)
    rw [Images.report_eq]
    refine ⟨numbered_of_found hfound _, pairwise_isAbout hfound id hsame _ 1, fun k tag htag => ?_⟩
    have hcount := countP_isAbout hfound htag
    refine ⟨hcount.trans_le (Images.length_found_le _), ?_⟩
    exact (Eq.congr_left hcount).trans (length_eq_zero_iff.trans Images.found_eq_nil_iff)
  · have hfound := Forms.isAbout_of_mem_found (Forms.targets page)
    rw [Forms.report_eq]
    refine ⟨numbered_of_found hfound _, fun k tag htag => ?_⟩
    have hcount := countP_isAbout hfound htag
    exact ⟨(Eq.congr_left hcount).trans (length_eq_zero_iff.trans Forms.found_targets_eq_nil_iff),
      (Eq.congr_left hcount).trans Forms.length_found_eq_two_iff⟩

/-- The second image is described. The hidden input counts for the number of the next one, which has two issues. -/
theorem issues_by_number_second_input :
    ∃ page, page = "<img><IMG alt='Low tide'><input type=' Hidden'><input placeholder='a'>".toList ∧
      ((Images.report page).issues ++ (Forms.report page).issues).map (·.message) =
        ["Image 1 is missing alt attribute", "Input 2 missing id attribute", "Input 2 uses placeholder as label"] ∧
      (Images.report page).issues.countP (·.IsAbout "Image " 2) = 0 ∧
      (Forms.report page).issues.countP (·.IsAbout "Input " 1) = 0 ∧
      (Forms.report page).issues.countP (·.IsAbout "Input " 2) = 2 ∧ (Forms.report page).passed = true := by
  have htags : (Tag.findAll .img "<img><IMG alt='Low tide'><input type=' Hidden'><input placeholder='a'>".toList)[1]? =
        some ⟨"img".toList, "<IMG alt='Low tide'>".toList, 5⟩ ∧
      Tag.findAll .input "<img><IMG alt='Low tide'><input type=' Hidden'><input placeholder='a'>".toList =
        [⟨"input".toList, "<input type=' Hidden'>".toList, 25⟩,
          ⟨"input".toList, "<input placeholder='a'>".toList, 47⟩] := by
    decide +kernel
  obtain ⟨himage, hinputs⟩ := htags
  obtain ⟨⟨-, -, himages⟩, ⟨-, hforms⟩, hpassed⟩ := issues_by_number
    "<img><IMG alt='Low tide'><input type=' Hidden'><input placeholder='a'>".toList
  rw [hinputs] at hforms hpassed
  have hvisible : ¬Forms.IsHidden "<input placeholder='a'>".toList := by
    rw [← Forms.isHidden_iff]
    decide +kernel
  refine ⟨_, rfl, by decide +kernel, ?_, ?_, ?_, ?_⟩
  · exact (himages 1 _ himage).2.mpr ⟨"Low tide".toList, by decide +kernel⟩
  · exact (hforms 0 _ rfl).1.mpr (.inl (Forms.isHidden_iff.mp (by decide +kernel)))
  · exact (hforms 1 _ rfl).2.mpr ⟨hvisible, by decide +kernel⟩
  · refine hpassed.mpr fun tag htag hshown hid => ?_
    rcases mem_pair.mp htag with rfl | rfl
    · exact absurd (Forms.isHidden_iff.mp (by decide +kernel)) hshown
    · exact absurd (by decide +kernel) hid

end Accessibility.Audit
