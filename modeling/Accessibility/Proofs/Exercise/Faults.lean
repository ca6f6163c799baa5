import Accessibility.Exercise.Verify
import Accessibility.Proofs.Color.Parse
import Accessibility.Proofs.Color.Verdict

/-! # When checking an exercise fails

A check reads numbers in two places: in the values of tab indices, and in colours that are declared with three numbers.
It fails exactly where one of these has more digits than are read. All other checks give a verdict on every page. -/

namespace Accessibility

namespace Exercise

/-! ## Tab indices -/

/-- Too many digits, and perhaps a line feed behind them. -/
def IsOverlongIndex (value : Text) : Prop :=
  ∃ run, (value = run ∨ value = run ++ ['\n']) ∧ (∀ c ∈ run, Text.isDigit c = true) ∧ Fault.digitLimit < run.length

theorem tabIndexDigits?_eq_some_iff {value run : Text} :
    tabIndexDigits? value = some run ↔
      (value = run ∨ value = run ++ ['\n']) ∧ run ≠ [] ∧ ∀ c ∈ run, Text.isDigit c = true := by
  have hfeed : Text.isDigit '\n' = false := by decide
  constructor
  · intro h
    simp only [tabIndexDigits?, Option.ite_none_right_eq_some, Option.some.injEq, Bool.and_eq_true, Bool.not_eq_true',
      List.isEmpty_eq_false_iff, List.all_eq_true] at h
    obtain ⟨hrun, rfl⟩ := h
    refine ⟨?_, hrun⟩
    by_cases hlast : value.getLast? = some '\n'
    · obtain ⟨rest, rfl⟩ := List.getLast?_eq_some_iff.mp hlast
      rw [if_pos hlast, List.dropLast_concat]
      exact .inr rfl
    · exact .inl (if_neg hlast).symm
  · rintro ⟨hvalue, hne, hdigits⟩
    have hrun : (if value.getLast? = some '\n' then value.dropLast else value) = run := by
      rcases hvalue with rfl | rfl
      · refine if_neg fun hlast => ?_
        rw [hdigits '\n' (List.mem_of_getLast? hlast)] at hfeed
        contradiction
      · rw [if_pos List.getLast?_concat, List.dropLast_concat]
    have hall : (!run.isEmpty && run.all Text.isDigit) = true := by
      rw [Bool.and_eq_true, Bool.not_eq_true', List.isEmpty_eq_false_iff, List.all_eq_true]
      exact ⟨hne, hdigits⟩
    simp only [tabIndexDigits?, hrun, hall, if_true]

theorem mapM_eq_ok {α β ε : Type} {f : α → Except ε β} {l : List α} (h : ∀ a ∈ l, ∃ b, f a = .ok b) :
    ∃ bs, l.mapM f = .ok bs := by
  induction l with
  | nil => exact ⟨[], rfl⟩
  | cons a l ih =>
      obtain ⟨b, hb⟩ := h a List.mem_cons_self
      obtain ⟨bs, hbs⟩ := ih fun c hc => h c (List.mem_cons_of_mem a hc)
      exact ⟨b :: bs, by rw [List.mapM_cons, hb, hbs]; rfl⟩

/-- Where nothing fails, the first answers and so do all others. -/
theorem exists_of_mapM_cons_eq_ok {α β ε : Type} {f : α → Except ε β} {a : α} {l : List α} {bs : List β}
    (h : (a :: l).mapM f = .ok bs) : ∃ b rest, f a = .ok b ∧ l.mapM f = .ok rest ∧ bs = b :: rest := by
  rw [List.mapM_cons] at h
  cases ha : f a with
  | error e =>
      rw [ha] at h
      cases h
  | ok b =>
      cases hl : l.mapM f with
      | error e =>
          rw [ha, hl] at h
          cases h
      | ok rest =>
          rw [ha, hl] at h
          cases h
          exact ⟨b, rest, rfl, rfl, rfl⟩

/-- Where something fails, the first that does decides how. -/
theorem mapM_eq_error {α β ε : Type} {f : α → Except ε β} {l : List α} (h : ∃ a ∈ l, ∃ e, f a = .error e) :
    ∃ a ∈ l, ∃ e, f a = .error e ∧ l.mapM f = .error e := by
  induction l with
  | nil =>
      obtain ⟨a, ha, -⟩ := h
      exact absurd ha List.not_mem_nil
  | cons a l ih =>
      cases ha : f a with
      | error e => exact ⟨a, List.mem_cons_self, e, ha, by rw [List.mapM_cons, ha]; rfl⟩
      | ok b =>
          have hrest : ∃ c ∈ l, ∃ e, f c = .error e := by
            obtain ⟨c, hc, e, he⟩ := h
            rcases List.mem_cons.mp hc with rfl | hc
            · rw [ha] at he
              contradiction
            · exact ⟨c, hc, e, he⟩
          obtain ⟨c, hc, e, he, hmap⟩ := ih hrest
          exact ⟨c, List.mem_cons_of_mem a hc, e, he, by rw [List.mapM_cons, ha, hmap]; rfl⟩

theorem tabOrder_of_overlong {page : Text}
    (h : ∃ value ∈ Attribute.values "tabindex".toList page, IsOverlongIndex value) :
    ∃ n, Fault.digitLimit < n ∧ tabOrder page = .error (.tooManyDigits n) := by
  obtain ⟨value, hvalue, run, hrun, hdigits, hlong⟩ := h
  have hne : run ≠ [] := by
    rintro rfl
    simp at hlong
  have hmem : run ∈ (Attribute.values "tabindex".toList page).filterMap tabIndexDigits? :=
    List.mem_filterMap.mpr ⟨value, hvalue, tabIndexDigits?_eq_some_iff.mpr ⟨hrun, hne, hdigits⟩⟩
  obtain ⟨first, -, e, he, hmap⟩ := mapM_eq_error ⟨run, hmem, _, Numeral.readRun_of_overlong hlong⟩
  obtain ⟨hfirst, rfl⟩ : Fault.digitLimit < first.length ∧ Fault.tooManyDigits first.length = e := by
    by_cases hfirst : Fault.digitLimit < first.length
    · rw [Numeral.readRun_of_overlong hfirst] at he
      exact ⟨hfirst, Except.error.inj he⟩
    · obtain ⟨n, hn⟩ := Numeral.exists_readRun hfirst
      rw [hn] at he
      contradiction
  exact ⟨first.length, hfirst, by rw [tabOrder, tabIndices, hmap]; rfl⟩

theorem exists_tabOrder_of_tabIndices {page : Text} {ns : List Nat} (h : tabIndices page = .ok ns) :
    ∃ v, tabOrder page = .ok v := by
  rw [tabOrder, h]
  by_cases horder : isTabOrder ns = true
  · exact ⟨_, if_pos horder⟩
  · exact ⟨_, if_neg horder⟩

theorem tabOrder_of_not_overlong {page : Text}
    (h : ¬∃ value ∈ Attribute.values "tabindex".toList page, IsOverlongIndex value) : ∃ v, tabOrder page = .ok v := by
  have hread : ∀ run ∈ (Attribute.values "tabindex".toList page).filterMap tabIndexDigits?,
      ∃ n, Numeral.readRun run = .ok n := by
    intro run hrun
    obtain ⟨value, hvalue, hdigits⟩ := List.mem_filterMap.mp hrun
    obtain ⟨hform, -, hall⟩ := tabIndexDigits?_eq_some_iff.mp hdigits
    exact Numeral.exists_readRun fun hlong => h ⟨value, hvalue, run, hform, hall, hlong⟩
  obtain ⟨indices, hindices⟩ := mapM_eq_ok hread
  exact exists_tabOrder_of_tabIndices hindices

/-! ## Declared colours -/

/-- The first value that is declared for a property, up to its mark of importance, is a colour with a number of too many
digits. -/
def DeclaresOverlong (p : Style.Property) (page : Text) : Prop :=
  ∃ o, Text.first? (Style.declared p) page = some o ∧
    Color.IsOverlong (Text.lower (Text.strip (Text.upTo '!' o.value)))

theorem not_isOverlong_nil : ¬Color.IsOverlong [] := by
  rintro ⟨f, hraw, -⟩
  rw [f.raw_eq] at hraw
  contradiction

theorem resolve_of_declaresOverlong {p : Style.Property} {page : Text} (h : DeclaresOverlong p page) (c : Color) :
    ∃ n, Fault.digitLimit < n ∧ Color.resolve (declaredColor p c page) c.hex = .error (.tooManyDigits n) := by
  obtain ⟨o, ho, hlong⟩ := h
  have hdeclared : Style.declaration? p page = some (Text.strip (Text.upTo '!' o.value)) := by
    rw [Style.declaration?, ho]
    rfl
  unfold declaredColor
  rw [hdeclared]
  cases hvalue : Text.strip (Text.upTo '!' o.value) with
  | nil =>
      rw [hvalue] at hlong
      exact absurd hlong not_isOverlong_nil
  | cons d rest =>
      have hnormal : Color.normal (d :: rest) = Text.lower (Text.strip (Text.upTo '!' o.value)) := by
        rw [Color.normal, ← hvalue, Text.strip_strip]
      obtain ⟨n, hn, hparse⟩ := Color.parse_of_overlong (hnormal ▸ hlong)
      exact ⟨n, hn, by simp only [Color.resolve, hparse]; rfl⟩

theorem resolve_of_not_declaresOverlong {p : Style.Property} {page : Text} (h : ¬DeclaresOverlong p page) (c : Color) :
    ∃ d : Color, Color.resolve (declaredColor p c page) c.hex = .ok d.hex := by
  have hparsed : ∃ found, Color.parse (declaredColor p c page) = .ok found := by
    unfold declaredColor
    rw [Style.declaration?]
    cases ho : Text.first? (Style.declared p) page with
    | none => exact ⟨some c, Color.parse_hex c⟩
    | some o =>
        rw [Option.map_some]
        cases hvalue : Text.strip (Text.upTo '!' o.value) with
        | nil => exact ⟨some c, Color.parse_hex c⟩
        | cons d rest =>
            refine Color.parse_of_not_overlong fun hlong => h ⟨o, ho, ?_⟩
            rwa [Color.normal, ← hvalue, Text.strip_strip] at hlong
  obtain ⟨found, hfound⟩ := hparsed
  refine ⟨found.getD c, ?_⟩
  rw [Color.resolve, hfound]
  cases found <;> rfl

theorem contrast_of_overlong {page : Text} (h : ∃ p, DeclaresOverlong p page) :
    ∃ n, Fault.digitLimit < n ∧ contrast page = .error (.tooManyDigits n) := by
  by_cases htext : DeclaresOverlong .color page
  · obtain ⟨n, hn, hcolor⟩ := resolve_of_declaresOverlong htext .black
    exact ⟨n, hn, by rw [contrast, textColor, hcolor]; rfl⟩
  · have hground : DeclaresOverlong .background page := by
      obtain ⟨p, hp⟩ := h
      cases p with
      | color => exact absurd hp htext
      | background => exact hp
    obtain ⟨d, hcolor⟩ := resolve_of_not_declaresOverlong htext .black
    obtain ⟨n, hn, hbackground⟩ := resolve_of_declaresOverlong hground .white
    exact ⟨n, hn, by rw [contrast, textColor, hcolor, backgroundColor, hbackground]; rfl⟩

/-- Colours that are resolved are understood, so that comparing them cannot fail any more. -/
theorem contrast_of_not_overlong {page : Text} (h : ¬∃ p, DeclaresOverlong p page) : ∃ v, contrast page = .ok v := by
  obtain ⟨text, hcolor⟩ := resolve_of_not_declaresOverlong (fun hlong => h ⟨.color, hlong⟩) .black
  obtain ⟨ground, hbackground⟩ := resolve_of_not_declaresOverlong (fun hlong => h ⟨.background, hlong⟩) .white
  obtain ⟨c, hc⟩ := Contrast.exists_compute (Color.parse_hex text) (Color.parse_hex ground)
  unfold contrast textColor backgroundColor
  rw [hcolor, hbackground]
  dsimp only [bind, Except.bind]
  rw [hc]
  exact ⟨_, rfl⟩

/-! ## All exercises -/

/-- A number that the check of an exercise reads has too many digits. -/
inductive Overlong (page : Text) : Activity.Request → Prop
  | tabOrder (h : ∃ value ∈ Attribute.values "tabindex".toList page, IsOverlongIndex value) :
      Overlong page (.known .tabOrder)
  | contrast (h : ∃ p, DeclaresOverlong p page) : Overlong page (.known .contrast)

theorem verify_of_overlong {page : Text} {request : Activity.Request} (h : Overlong page request) :
    ∃ n, Fault.digitLimit < n ∧ verify page request = .error (.tooManyDigits n) := by
  cases h with
  | tabOrder h => exact tabOrder_of_overlong h
  | contrast h => exact contrast_of_overlong h

theorem verify_of_not_overlong {page : Text} {request : Activity.Request} (h : ¬Overlong page request) :
    ∃ v, verify page request = .ok v := by
  cases request with
  | unknown shown => exact ⟨_, rfl⟩
  | known a =>
      cases a with
      | tabOrder => exact tabOrder_of_not_overlong fun hlong => h (.tabOrder hlong)
      | contrast => exact contrast_of_not_overlong fun hlong => h (.contrast hlong)
      | _ => exact ⟨_, rfl⟩

end Exercise

end Accessibility
