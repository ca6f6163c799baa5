import Accessibility.Color.Contrast
import Accessibility.Proofs.Text.Case
import Accessibility.Style.Declaration

/-! # Styles without regard to case

Properties and units are compared loosely and colours are read in lower case, so that the case of ASCII letters changes
neither which declarations are found nor which colours they give. -/

namespace Accessibility

open Text (foldCase)

namespace Style

theorem caseBlind_isValueChar : Text.CaseBlind isValueChar :=
  Text.caseBlind_of_letters (by decide)

theorem caseBlind_isLetter : Text.CaseBlind isLetter := by
  intro c
  rw [isLetter, isLetter, Text.loose_toLower]

theorem Property.take?_foldCase (p : Property) (t : Text) :
    p.take? (foldCase t) = (p.take? t).map (Prod.map foldCase foldCase) := by
  cases p with
  | color => exact Text.take?_foldCase _ t
  | background =>
      rw [take?, take?, Text.take?_foldCase]
      cases Text.take? "background".toList t with
      | none => rfl
      | some found =>
          obtain ⟨front, rest⟩ := found
          simp only [Option.map_some, Prod.map_apply, Text.take?_foldCase]
          cases Text.take? "-color".toList rest with
          | none => rfl
          | some more => simp only [Option.map_some, Prod.map_fst, Prod.map_snd, Prod.map_apply, Text.foldCase_append]

theorem colon?_foldCase (t : Text) : colon? (foldCase t) = (colon? t).map (Prod.map foldCase foldCase) := by
  rw [colon?, colon?, Text.caseBlind_isBlank.dropWhile, Text.caseBlind_isBlank.takeWhile]
  cases t.dropWhile Text.isBlank with
  | nil => rfl
  | cons c rest =>
      have hc : c.toLower = ':' ↔ c = ':' := Text.toLower_eq_iff (by decide)
      by_cases hcolon : c = ':'
      · subst hcolon
        simp [show ':'.toLower = ':' from rfl]
      · simp [hcolon, mt hc.mp hcolon]

theorem value?_foldCase (t : Text) : value? (foldCase t) = (value? t).map (Prod.map foldCase foldCase) := by
  simp only [value?, Text.caseBlind_isBlank.takeWhile, Text.caseBlind_isBlank.dropWhile,
    caseBlind_isValueChar.takeWhile, caseBlind_isValueChar.any, Text.isEmpty_foldCase, ← Text.foldCase_append]
  simp only [apply_ite (Option.map (Prod.map foldCase foldCase)), Option.map_some, Prod.map_apply, Option.map_none]

theorem declared_ignoresCase (p : Property) : (declared p).IgnoresCase foldCase := by
  intro before t
  rw [declared, declared, Text.caseBlind_isName.any_option, p.take?_foldCase]
  split
  · rfl
  · cases p.take? t with
    | none => rfl
    | some found =>
        obtain ⟨front, rest⟩ := found
        simp only [Option.map_some, Prod.map_apply, colon?_foldCase]
        cases colon? rest with
        | none => rfl
        | some colon =>
            simp only [Option.map_some, Prod.map_fst, Prod.map_snd, Prod.map_apply, value?_foldCase, Option.map_map,
              Function.comp_def, Text.foldCase_append]

theorem declaration?_foldCase (p : Property) (page : Text) :
    declaration? p (foldCase page) = (declaration? p page).map foldCase := by
  simp only [declaration?, Text.first?_foldCase (declared_ignoresCase p), Option.map_map, Function.comp_def,
    Occurrence.foldCase, Text.upTo_foldCase (show '!'.isAlpha = false from rfl), Text.strip_foldCase]

theorem fixedWidth_ignoresCase : fixedWidth.IgnoresCase id := by
  intro before t
  rw [fixedWidth, fixedWidth, Text.caseBlind_isName.any_option, Text.take?_foldCase]
  split
  · rfl
  · cases Text.take? "width".toList t with
    | none => rfl
    | some found =>
        obtain ⟨front, rest⟩ := found
        simp only [Option.map_some, Prod.map_apply, colon?_foldCase]
        cases colon? rest with
        | none => rfl
        | some colon =>
            simp only [Option.map_some, Prod.map_fst, Prod.map_snd, Prod.map_apply, Text.caseBlind_isBlank.dropWhile,
              Text.caseBlind_isBlank.takeWhile, Text.take?_foldCase, Option.map_map, Function.comp_def,
              Text.foldCase_append, id_eq]

/-- The unit where no percent sign stands at the front. -/
def fontUnit? (t : Text) : Option Text :=
  let (root, rest) := (Text.take? ['r'] t).getD ([], t)
  match Text.take? "em".toList rest with
  | none => none
  | some (em, after) => if after.head?.any isLetter then none else some (root ++ em)

theorem relativeUnit?_cons (c : Char) (t : Text) :
    relativeUnit? (c :: t) = if c = '%' then some ['%'] else fontUnit? (c :: t) := by
  by_cases hc : c = '%'
  · subst hc
    rfl
  · rw [if_neg hc]
    unfold relativeUnit? fontUnit?
    split
    · rename_i heq
      exact absurd (List.cons.inj heq).1 hc
    · rfl

theorem fontUnit?_foldCase (t : Text) : fontUnit? (foldCase t) = (fontUnit? t).map foldCase := by
  have hroot : (Text.take? ['r'] (foldCase t)).getD ([], foldCase t) =
      ((Text.take? ['r'] t).getD ([], t)).map foldCase foldCase := by
    rw [Text.take?_foldCase]
    cases Text.take? ['r'] t <;> rfl
  unfold fontUnit?
  rw [hroot]
  obtain ⟨root, rest⟩ := (Text.take? ['r'] t).getD ([], t)
  simp only [Prod.map_apply, Text.take?_foldCase]
  cases Text.take? "em".toList rest with
  | none => rfl
  | some found =>
      simp only [Option.map_some, Prod.map_fst, Prod.map_snd, caseBlind_isLetter.head?, ← Text.foldCase_append,
        apply_ite (Option.map foldCase), Option.map_none]

theorem relativeUnit?_foldCase (t : Text) : relativeUnit? (foldCase t) = (relativeUnit? t).map foldCase := by
  cases t with
  | nil => rfl
  | cons c t =>
      have hc : c.toLower = '%' ↔ c = '%' := Text.toLower_eq_iff (by decide)
      rw [Text.foldCase_cons, relativeUnit?_cons, relativeUnit?_cons, ← Text.foldCase_cons, fontUnit?_foldCase]
      simp only [hc, apply_ite (Option.map foldCase)]
      rfl

theorem relativeLength_ignoresCase : relativeLength.IgnoresCase id := by
  intro before t
  cases t with
  | nil => rfl
  | cons d rest =>
      simp only [Text.foldCase_cons, relativeLength, Text.caseBlind_isDigit d, relativeUnit?_foldCase]
      split
      · simp only [Option.map_map]
        rfl
      · rfl

end Style

/-! ## Colours -/

namespace Color

theorem parse_foldCase (t : Text) : parse (.text (foldCase t)) = parse (.text t) := by
  simp only [parse, Text.strip_foldCase, Text.lower_foldCase]

theorem resolve_foldCase (t default : Text) : resolve (.text (foldCase t)) default = resolve (.text t) default := by
  rw [resolve, parse_foldCase, resolve]

end Color

end Accessibility
