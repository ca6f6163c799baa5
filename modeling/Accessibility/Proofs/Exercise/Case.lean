import Accessibility.Exercise.Verify
import Accessibility.Proofs.Audit.Case
import Accessibility.Proofs.Style.Case

/-! # Exercises without regard to case

A check reads the page through scans and through its lower case. Only the announcement quotes the page as it is written,
and only the checks of skip links and of form labels compare what is written. -/

namespace Accessibility

open Text (foldCase)

/-- What a verdict says, apart from the announcement. -/
def Verdict.gist (v : Verdict) : Bool × String × List String :=
  (v.passed, v.message, v.details)

theorem Verdict.gist_mk (passed : Bool) (message : String) (details : List String) (announcement : Option String) :
    Verdict.gist ⟨passed, message, details, announcement⟩ = (passed, message, details) := rfl

namespace Exercise

/-! ## Text alternatives and labels -/

theorem contains_nil_foldCase (ts : List Text) : (ts.map foldCase).contains [] = ts.contains [] := by
  rw [Bool.eq_iff_iff, List.contains_iff_mem, List.contains_iff_mem, List.mem_map]
  constructor
  · rintro ⟨t, ht, hnil⟩
    rwa [Text.foldCase_eq_nil_iff.mp hnil] at ht
  · intro h
    exact ⟨[], h, rfl⟩

theorem alternatives_foldCase (page : Text) : alternatives (foldCase page) = (alternatives page).map foldCase :=
  Attribute.values_foldCase _ page

theorem isMeaningful_foldCase : isMeaningful ∘ foldCase = isMeaningful := by
  funext alternative
  simp only [Function.comp_apply, isMeaningful, Text.length_foldCase, Audit.isRedundant_foldCase]

theorem generic_foldCase (page : Text) : generic (foldCase page) = generic page := by
  simp only [generic, alternatives_foldCase, List.isEmpty_map, contains_nil_foldCase]

theorem altText_foldCase (page : Text) : (altText (foldCase page)).gist = (altText page).gist := by
  simp only [altText, alternatives_foldCase, contains_nil_foldCase, List.filter_map, isMeaningful_foldCase,
    List.length_map, apply_ite Verdict.gist, Verdict.gist_mk]
  cases alternatives page with
  | nil => rfl
  | cons first behind => simp only [List.map_cons, apply_ite Verdict.gist, Verdict.gist_mk]

theorem ariaLabel_foldCase (page : Text) : (ariaLabel (foldCase page)).gist = (ariaLabel page).gist := by
  simp only [ariaLabel, Attribute.values_foldCase, List.filter_map, Function.comp_def, Text.length_foldCase,
    List.length_map]
  cases Attribute.values "aria-label".toList page with
  | nil => rfl
  | cons first behind => simp only [List.map_cons, apply_ite Verdict.gist, Verdict.gist_mk]

theorem liveRegion_foldCase (page : Text) : liveRegion (foldCase page) = liveRegion page := by
  rw [liveRegion, Attribute.isGiven_foldCase, liveRegion]

/-! ## Headings -/

theorem levels_foldCase (page : Text) : levels (foldCase page) = levels page := by
  simp only [levels, headings, Tag.findAll_foldCase, List.map_map]
  rfl

theorem heading_foldCase (page : Text) : (heading (foldCase page)).gist = (heading page).gist := by
  simp only [heading, levels_foldCase, apply_ite Verdict.gist, Verdict.gist_mk]

/-! ## The keyboard -/

theorem tabIndexDigits?_foldCase (value : Text) :
    tabIndexDigits? (foldCase value) = (tabIndexDigits? value).map foldCase := by
  have hfeed : (foldCase value).getLast? = some '\n' ↔ value.getLast? = some '\n' := by
    rw [foldCase, List.getLast?_map, Option.map_eq_some_iff]
    simp only [Text.toLower_eq_iff (show '\n'.isAlpha = false from rfl), exists_eq_right]
  have hrun : (if (foldCase value).getLast? = some '\n' then (foldCase value).dropLast else foldCase value) =
      foldCase (if value.getLast? = some '\n' then value.dropLast else value) := by
    rw [apply_ite foldCase]
    exact if_congr hfeed List.map_dropLast.symm rfl
  simp only [tabIndexDigits?, hrun, Text.isEmpty_foldCase, Text.caseBlind_isDigit.all, apply_ite (Option.map foldCase)]
  rfl

theorem readRun_foldCase : Numeral.readRun ∘ foldCase = Numeral.readRun := by
  have hvalues : Text.digitValue? ∘ Char.toLower = Text.digitValue? := funext Text.digitValue?_toLower
  funext run
  rw [Function.comp_apply, Numeral.readRun, Text.length_foldCase, foldCase, List.filterMap_map, hvalues,
    Numeral.readRun]

theorem tabIndices_foldCase (page : Text) : tabIndices (foldCase page) = tabIndices page := by
  have hdigits : tabIndexDigits? ∘ foldCase = fun value => (tabIndexDigits? value).map foldCase :=
    funext tabIndexDigits?_foldCase
  simp only [tabIndices, Attribute.values_foldCase, List.filterMap_map, hdigits, ← List.map_filterMap, List.mapM_map,
    readRun_foldCase]

theorem tabOrder_foldCase (page : Text) : tabOrder (foldCase page) = tabOrder page := by
  rw [tabOrder, tabIndices_foldCase, tabOrder]

/-! ## Style -/

theorem resolve_declaredColor_foldCase (p : Style.Property) (color : Color) (default page : Text) :
    Color.resolve (declaredColor p color (foldCase page)) default =
      Color.resolve (declaredColor p color page) default := by
  unfold declaredColor
  rw [Style.declaration?_foldCase]
  cases Style.declaration? p page with
  | none => rfl
  | some value =>
      cases value with
      | nil => rfl
      | cons c rest => exact Color.resolve_foldCase (c :: rest) default

theorem contrast_foldCase (page : Text) : contrast (foldCase page) = contrast page := by
  simp only [contrast, textColor, backgroundColor, resolve_declaredColor_foldCase]

theorem mentions_foldCase (word : String) (page : Text) : mentions word (foldCase page) = mentions word page := by
  rw [mentions, Text.lower_foldCase, mentions]

theorem focus_foldCase (page : Text) : focus (foldCase page) = focus page := by
  simp only [focus, mentions_foldCase]

theorem responsive_foldCase (page : Text) : responsive (foldCase page) = responsive page := by
  simp only [responsive, mentions_foldCase, Text.first?_foldCase Style.fixedWidth_ignoresCase,
    Text.first?_foldCase Style.relativeLength_ignoresCase, Option.isSome_map, Option.isNone_map]

theorem motion_foldCase (page : Text) : motion (foldCase page) = motion page := by
  simp only [motion, mentions_foldCase]

theorem isCaptions_foldCase : isCaptions ∘ Tag.foldCase = isCaptions := by
  funext track
  simp only [Function.comp_apply, isCaptions, Tag.foldCase, Attribute.value?_foldCase]
  cases Attribute.value? "kind".toList track.raw with
  | none => rfl
  | some kind => simp only [Option.map_some, Text.strip_foldCase, Text.lower_foldCase]

theorem captions_foldCase (page : Text) : captions (foldCase page) = captions page := by
  simp only [captions, Tag.findAll_foldCase, List.any_map, isCaptions_foldCase, mentions_foldCase]

/-! ## All exercises -/

/-- The exercises that compare identifiers, in which case matters. -/
def comparesIdentifiers : Activity.Request → Bool
  | .known .skipLink | .known .formLabel => true
  | _ => false

theorem verify_foldCase {request : Activity.Request} (h : comparesIdentifiers request = false) (page : Text) :
    (verify (foldCase page) request).map Verdict.gist = (verify page request).map Verdict.gist := by
  cases request with
  | unknown shown => exact congrArg (Except.ok ∘ Verdict.gist) (generic_foldCase page)
  | known a =>
      cases a with
      | altText => exact congrArg Except.ok (altText_foldCase page)
      | heading => exact congrArg Except.ok (heading_foldCase page)
      | contrast => exact congrArg (Except.map Verdict.gist) (contrast_foldCase page)
      | tabOrder => exact congrArg (Except.map Verdict.gist) (tabOrder_foldCase page)
      | focus => exact congrArg (Except.ok ∘ Verdict.gist) (focus_foldCase page)
      | skipLink => exact absurd h (by decide)
      | ariaLabel => exact congrArg Except.ok (ariaLabel_foldCase page)
      | formLabel => exact absurd h (by decide)
      | liveRegion => exact congrArg (Except.ok ∘ Verdict.gist) (liveRegion_foldCase page)
      | responsive => exact congrArg (Except.ok ∘ Verdict.gist) (responsive_foldCase page)
      | motion => exact congrArg (Except.ok ∘ Verdict.gist) (motion_foldCase page)
      | captions => exact congrArg (Except.ok ∘ Verdict.gist) (captions_foldCase page)

/-- Two pages that differ in nothing but the case of ASCII letters are judged alike: their reports on images, headings
and accessibility attributes agree in everything but the quoted sources, and every exercise that does not compare
identifiers fails on both in the same way or gives both the same verdict, apart from the announcement. -/
theorem judged_alike {page page' : Text} (h : foldCase page = foldCase page') :
    (∀ s : Audit.Subject, s ≠ .forms → (s.report page).Agrees (s.report page')) ∧
      ∀ request, request ≠ .known .skipLink → request ≠ .known .formLabel →
        (verify page request).map Verdict.gist = (verify page' request).map Verdict.gist := by
  constructor
  · intro s hs
    have hpage := Audit.Subject.report_foldCase hs page
    rw [h] at hpage
    exact hpage.symm.trans (Audit.Subject.report_foldCase hs page')
  · intro request hskip hform
    have hrequest : comparesIdentifiers request = false := by
      unfold comparesIdentifiers
      split
      · exact absurd rfl hskip
      · exact absurd rfl hform
      · rfl
    rw [← verify_foldCase hrequest page, h, verify_foldCase hrequest page']

/-- Where capitals make a difference, only the announcement shows it. -/
theorem judged_alike_in_capitals :
    ∃ page page', page = "<img alt=\"low tides\">".toList ∧ page' = "<IMG Alt=\"LOW tides\">".toList ∧
      foldCase page = foldCase page' ∧ (Audit.Images.report page).Agrees (Audit.Images.report page') ∧
      (verify page (.known .altText)).map Verdict.gist = (verify page' (.known .altText)).map Verdict.gist ∧
      (altText page).announcement = some "low tides" ∧
      (altText page').announcement = some "LOW tides" := by
  have hsame : foldCase "<img alt=\"low tides\">".toList =
      foldCase "<IMG Alt=\"LOW tides\">".toList := by decide
  obtain ⟨hreports, hverdicts⟩ := judged_alike hsame
  exact ⟨_, _, rfl, rfl, hsame, hreports .images (by decide), hverdicts _ (by decide) (by decide), by decide,
    by decide⟩

end Exercise

end Accessibility
