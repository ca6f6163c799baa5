import Accessibility.Markup.Attribute
import Accessibility.Markup.Element
import Accessibility.Proofs.Text.Case

/-! # Markup without regard to case

Names of tags and attributes are compared loosely, and everything else that a scan looks for is no letter. So the scans
for tags, elements and attributes find in a page whose capitals are made small what they find in the page, with small
letters for capitals. Names of tags and of accessibility attributes are given in lower case and stay as they are. -/

namespace Accessibility

open Text (foldCase)

/-! ## Opening tags -/

theorem TagName.caseBlind_isLevel : Text.CaseBlind TagName.isLevel :=
  Text.caseBlind_of_letters (by decide)

theorem TagName.take?_foldCase (name : TagName) (t : Text) :
    name.take? (foldCase t) = (name.take? t).map (Prod.map foldCase foldCase) := by
  cases name with
  | literal name => exact Text.take?_foldCase name t
  | heading =>
      match t with
      | [] => rfl
      | [c] => rfl
      | h :: d :: rest =>
          have hletter : Text.agrees 'h' h.toLower = Text.agrees 'h' h := by
            rw [Text.agrees, Text.agrees, Text.loose_toLower]
          simp only [Text.foldCase_cons, take?, hletter, caseBlind_isLevel d]
          split <;> rfl

namespace Opening

/-- The opening tag with small letters for capitals. -/
def foldCase (o : Opening) : Opening where
  written := Text.foldCase o.written
  inner := Text.foldCase o.inner
  rest := Text.foldCase o.rest

@[simp] theorem raw_foldCase (o : Opening) : o.foldCase.raw = Text.foldCase o.raw := by
  simp [raw, foldCase, show '<'.toLower = '<' from rfl, show '>'.toLower = '>' from rfl]

@[simp] theorem name_foldCase (o : Opening) : o.foldCase.name = o.name :=
  Text.lower_foldCase o.written

theorem read?_foldCase (name : TagName) (t : Text) :
    read? name (Text.foldCase t) = (read? name t).map foldCase := by
  cases t with
  | nil => rfl
  | cons c t =>
      by_cases hc : c = '<'
      · subst hc
        rw [Text.foldCase_cons, show '<'.toLower = '<' from rfl, read?, read?, name.take?_foldCase]
        cases name.take? t with
        | none => rfl
        | some found =>
            obtain ⟨written, rest⟩ := found
            simp only [Option.map_some, Prod.map_apply, Text.caseBlind_isName.head?,
              Text.after?_foldCase (show '>'.isAlpha = false from rfl),
              Text.upTo_foldCase (show '>'.isAlpha = false from rfl)]
            split
            · rfl
            · simp only [Option.map_map]
              rfl
      · have hfold : c.toLower ≠ '<' := mt (Text.toLower_eq_iff (by decide)).mp hc
        simp [read?, hc, hfold]

end Opening

namespace Tag

theorem recognize_ignoresCase (name : TagName) : (recognize name).IgnoresCase id := by
  intro before t
  simp only [recognize, Opening.read?_foldCase, Option.map_map, Function.comp_def, Opening.name_foldCase,
    Opening.raw_foldCase]
  rfl

/-- The tag in the page whose capitals are made small. -/
def foldCase (tag : Tag) : Tag :=
  { tag with raw := Text.foldCase tag.raw }

theorem findAll_foldCase (name : TagName) (page : Text) :
    findAll name (Text.foldCase page) = (findAll name page).map foldCase := by
  simp only [findAll, Text.occurrences_foldCase (recognize_ignoresCase name), List.map_map]
  rfl

end Tag

/-! ## Elements -/

namespace Element

theorem closing?_singleton (name : TagName) (c : Char) : closing? name [c] = none := by
  unfold closing?
  split
  · rename_i heq
    simp at heq
  · rfl

theorem closing?_foldCase (name : TagName) (t : Text) :
    closing? name (foldCase t) = (closing? name t).map foldCase := by
  match t with
  | [] => rfl
  | [c] => rw [Text.foldCase_cons, Text.foldCase_nil, closing?_singleton, closing?_singleton, Option.map_none]
  | a :: b :: u =>
      by_cases hab : a = '<' ∧ b = '/'
      · obtain ⟨rfl, rfl⟩ := hab
        rw [Text.foldCase_cons, Text.foldCase_cons, show '<'.toLower = '<' from rfl,
          show '/'.toLower = '/' from rfl, closing?, closing?, name.take?_foldCase]
        cases name.take? u with
        | none => rfl
        | some found =>
            obtain ⟨written, rest⟩ := found
            simp only [Option.map_some, Prod.map_apply, Text.caseBlind_isBlank.dropWhile,
              Text.caseBlind_isBlank.takeWhile]
            cases rest.dropWhile Text.isBlank with
            | nil => rfl
            | cons c behind =>
                have hc : c.toLower = '>' ↔ c = '>' := Text.toLower_eq_iff (by decide)
                by_cases hbracket : c = '>'
                · subst hbracket
                  simp [show '>'.toLower = '>' from rfl, show '<'.toLower = '<' from rfl,
                    show '/'.toLower = '/' from rfl]
                · simp [hbracket, mt hc.mp hbracket]
      · have ha : a.toLower = '<' ↔ a = '<' := Text.toLower_eq_iff (by decide)
        have hb : b.toLower = '/' ↔ b = '/' := Text.toLower_eq_iff (by decide)
        have hfold : ¬(a.toLower = '<' ∧ b.toLower = '/') := by rwa [ha, hb]
        have hnone : ∀ {c d : Char} {v : Text}, ¬(c = '<' ∧ d = '/') → closing? name (c :: d :: v) = none := by
          intro c d v h
          unfold closing?
          split
          · rename_i heq
            simp only [List.cons.injEq] at heq
            exact absurd ⟨heq.1, heq.2.1⟩ h
          · rfl
        rw [Text.foldCase_cons, Text.foldCase_cons, hnone hab, hnone hfold, Option.map_none]

/-- The parts of an element with small letters for capitals. -/
def Parts.foldCase (p : Parts) : Parts where
  name := p.name
  openTag := Text.foldCase p.openTag
  text := Text.foldCase p.text

theorem recognize_ignoresCase (name : TagName) : (recognize name).IgnoresCase Parts.foldCase := by
  intro before t
  simp only [recognize, Opening.read?_foldCase]
  cases Opening.read? name t with
  | none => rfl
  | some o =>
      have hdrop : (foldCase o.rest).drop (Text.upTo '<' o.rest).length =
          foldCase (o.rest.drop (Text.upTo '<' o.rest).length) := List.map_drop.symm
      simp only [Option.map_some, Opening.name_foldCase, Opening.raw_foldCase]
      simp only [Opening.foldCase, Text.upTo_foldCase (show '<'.isAlpha = false from rfl), Text.length_foldCase, hdrop,
        closing?_foldCase, Option.map_map, Function.comp_def, Prod.map_apply, Text.foldCase_append]
      rfl

/-- The element in the page whose capitals are made small. -/
def foldCase (e : Element) : Element where
  name := e.name
  openTag := Text.foldCase e.openTag
  text := Text.foldCase e.text
  raw := Text.foldCase e.raw
  start := e.start

theorem findAll_foldCase (name : TagName) (page : Text) :
    findAll name (Text.foldCase page) = (findAll name page).map foldCase := by
  simp only [findAll, Text.occurrences_foldCase (recognize_ignoresCase name), List.map_map]
  rfl

end Element

/-! ## Attributes -/

namespace Attribute

theorem equals?_foldCase (t : Text) : equals? (foldCase t) = (equals? t).map (Prod.map foldCase foldCase) := by
  rw [equals?, equals?, Text.caseBlind_isBlank.dropWhile, Text.caseBlind_isBlank.takeWhile]
  cases t.dropWhile Text.isBlank with
  | nil => rfl
  | cons c rest =>
      have hc : c.toLower = '=' ↔ c = '=' := Text.toLower_eq_iff (by decide)
      by_cases hequals : c = '='
      · subst hequals
        simp [show '='.toLower = '=' from rfl]
      · simp [hequals, mt hc.mp hequals]

theorem caseBlind_isQuote : Text.CaseBlind isQuote :=
  Text.caseBlind_of_letters (by decide)

/-- A quote is no letter, so it closes a value whatever the case of letters. -/
theorem isAlpha_of_isQuote {c : Char} (h : isQuote c = true) : c.isAlpha = false := by
  rw [isQuote, Bool.or_eq_true, beq_iff_eq, beq_iff_eq] at h
  rcases h with rfl | rfl <;> rfl

theorem quotedValue?_foldCase (t : Text) :
    quotedValue? (foldCase t) = (quotedValue? t).map (Prod.map foldCase foldCase) := by
  rw [quotedValue?, quotedValue?, Text.caseBlind_isBlank.dropWhile, Text.caseBlind_isBlank.takeWhile]
  cases t.dropWhile Text.isBlank with
  | nil => rfl
  | cons quote rest =>
      rw [Text.foldCase_cons]
      dsimp only
      rw [caseBlind_isQuote quote]
      by_cases hquote : isQuote quote = true
      · have hmark := isAlpha_of_isQuote hquote
        have hsame : quote.toLower = quote := (Text.toLower_eq_iff hmark).mpr rfl
        simp only [hquote, if_true, hsame, Text.after?_foldCase hmark, Text.upTo_foldCase hmark, Option.map_map]
        cases Text.after? quote rest with
        | none => rfl
        | some behind => simp [hsame]
      · simp [hquote]

theorem named_ignoresCase (name : Text) : (named name).IgnoresCase foldCase := by
  intro before t
  rw [named, named, Text.caseBlind_isName.any_option, Text.take?_foldCase]
  split
  · rfl
  · cases Text.take? name t with
    | none => rfl
    | some found =>
        obtain ⟨written, rest⟩ := found
        simp only [Option.map_some, Prod.map_apply, equals?_foldCase, Option.map_map, Function.comp_def, Prod.map_fst,
          Text.foldCase_append]

theorem valued_ignoresCase (name : Text) : (valued name).IgnoresCase foldCase := by
  intro before t
  rw [valued, valued, Text.caseBlind_isName.any_option, Text.take?_foldCase]
  split
  · rfl
  · cases Text.take? name t with
    | none => rfl
    | some found =>
        obtain ⟨written, rest⟩ := found
        simp only [Option.map_some, Prod.map_apply, equals?_foldCase]
        cases equals? rest with
        | none => rfl
        | some equals =>
            simp only [Option.map_some, Prod.map_fst, Prod.map_snd, Prod.map_apply, quotedValue?_foldCase,
              Option.map_map, Function.comp_def, Text.foldCase_append]

theorem values_foldCase (name page : Text) : values name (foldCase page) = (values name page).map foldCase := by
  simp only [values, Text.occurrences_foldCase (valued_ignoresCase name), List.map_map]
  rfl

theorem value?_foldCase (name text : Text) : value? name (foldCase text) = (value? name text).map foldCase := by
  simp only [value?, Text.first?_foldCase (valued_ignoresCase name), Option.map_map]
  rfl

theorem isGiven_foldCase (name text : Text) : isGiven name (foldCase text) = isGiven name text := by
  rw [isGiven, isGiven, Text.first?_foldCase (named_ignoresCase name), Option.isSome_map]

theorem aria_ignoresCase : aria.IgnoresCase id := by
  intro before t
  rw [aria, aria, Text.caseBlind_isName.any_option, Text.take?_foldCase]
  split
  · rfl
  · cases Text.take? ariaFront t with
    | none => rfl
    | some found =>
        obtain ⟨front, rest⟩ := found
        simp only [Option.map_some, Prod.map_apply, Text.caseBlind_isName.takeWhile, Text.isEmpty_foldCase,
          Text.caseBlind_isName.dropWhile, equals?_foldCase, ← Text.foldCase_append, Text.lower_foldCase]
        split
        · rfl
        · simp only [Option.map_map, Function.comp_def, Prod.map_apply, Prod.map_fst, ← Text.foldCase_append]
          rfl

theorem ariaNames_foldCase (page : Text) : ariaNames (foldCase page) = ariaNames page := by
  simp only [ariaNames, Text.occurrences_foldCase aria_ignoresCase, List.map_map]
  rfl

end Attribute

end Accessibility
