import Accessibility.Proofs.Color.Parse
import Accessibility.Proofs.Color.Verdict
import Accessibility.Proofs.Style.Sheet
import Accessibility.Exercise.Verify

/-! # The contrast of the colours of a sheet

The check of a contrast looks for the first declarations of two properties, resolves each to a canonical colour, and
resolves these once more to compare them. It judges the colours as they were declared. -/

namespace Accessibility

/-! ## Declared colours -/

/-- A value that is declared, or a default colour. -/
def Value.ofDeclared (default : Color) (declared : Option Text) : Value :=
  .text (declared.getD default.hex)

namespace Color

/-- The colour that is declared, where a default stands in for what is not declared or not understood. -/
inductive DeclaredAs (default : Color) : Option Text → Color → Prop
  | undeclared : DeclaredAs default none default
  | understood {v : Text} {c : Color} (h : parse (.text v) = .ok (some c)) : DeclaredAs default (some v) c
  | unknown {v : Text} (h : parse (.text v) = .ok none) : DeclaredAs default (some v) default

theorem parse_strip (t : Text) : parse (.text (Text.strip t)) = parse (.text t) := by
  simp only [parse, Text.strip_strip]

/-- A declared value stands for one colour, wherever it can be read. -/
theorem declaredAs_iff {default c : Color} {declared : Option Text} {found : Option Color}
    (h : parse (.ofDeclared default declared) = .ok found) :
    DeclaredAs default declared c ↔ c = found.getD default := by
  constructor
  · rintro (_ | hread | hread)
    · obtain rfl : some default = found := Except.ok.inj ((parse_hex default).symm.trans h)
      rfl
    · obtain rfl : some c = found := Except.ok.inj (hread.symm.trans h)
      rfl
    · obtain rfl : none = found := Except.ok.inj (hread.symm.trans h)
      rfl
  · rintro rfl
    cases declared with
    | none =>
        obtain rfl : some default = found := Except.ok.inj ((parse_hex default).symm.trans h)
        exact .undeclared
    | some v =>
        cases found with
        | none => exact .unknown h
        | some c => exact .understood h

end Color

/-- Colours may be resolved before they are compared, each with the default that the comparison has for it. -/
theorem Contrast.compute_resolved {foreground background : Value} {text ground : Option Color}
    (htext : Color.parse foreground = .ok text) (hground : Color.parse background = .ok ground) :
    compute (.text (text.getD .black).hex) (.text (ground.getD .white).hex) = compute foreground background := by
  rw [compute_eq, compute_eq, ratio?_of_parse htext hground, ratio?_of_parse (Color.parse_hex _) (Color.parse_hex _)]
  rfl

namespace Exercise

open Style (firstValue?)

theorem parse_declaredColor_render (p : Style.Property) (default : Color) (sheet : List Style.Declaration) :
    Color.parse (declaredColor p default (Style.render sheet)) =
      Color.parse (Value.ofDeclared default (firstValue? p sheet)) := by
  rw [declaredColor, Style.declaration?_render]
  cases hv : firstValue? p sheet with
  | none => rfl
  | some v =>
      obtain ⟨d, -, rfl⟩ := Style.exists_of_firstValue? hv
      obtain ⟨c, hc, hvisible⟩ := d.value_not_blank
      obtain ⟨e, rest, hstrip⟩ := List.exists_cons_of_ne_nil (List.ne_nil_of_mem (Text.mem_trim_of_mem hvisible hc))
      have hstripped : Text.strip d.value = e :: rest := hstrip
      rw [Option.map_some, hstripped]
      change Color.parse (.text (e :: rest)) = _
      rw [← hstripped, Color.parse_strip]
      rfl

/-- A declared colour is resolved to the canonical form of what it is understood as, or of the default. -/
theorem resolve_declaredColor_render (p : Style.Property) (default : Color) (sheet : List Style.Declaration) :
    Color.resolve (declaredColor p default (Style.render sheet)) default.hex =
      (Color.parse (Value.ofDeclared default (firstValue? p sheet))).map fun c => (c.getD default).hex := by
  rw [Color.resolve, parse_declaredColor_render]
  cases Color.parse (Value.ofDeclared default (firstValue? p sheet)) with
  | error _ => rfl
  | ok found => cases found <;> rfl

section Sheet

variable {sheet : List Style.Declaration}

/-- The values that the check of a sheet compares. -/
def comparedText (sheet : List Style.Declaration) : Value :=
  .ofDeclared .black (firstValue? .color sheet)

def comparedGround (sheet : List Style.Declaration) : Value :=
  .ofDeclared .white (firstValue? .background sheet)

theorem contrast_render_of_parse {text ground : Option Color} (htext : Color.parse (comparedText sheet) = .ok text)
    (hground : Color.parse (comparedGround sheet) = .ok ground) :
    ∃ v c, contrast (Style.render sheet) = .ok v ∧
      Contrast.compute (comparedText sheet) (comparedGround sheet) = .ok c ∧ v.passed = c.passes ∧
      v.details = ["Text color: " ++ String.ofList (text.getD .black).hex,
        "Background color: " ++ String.ofList (ground.getD .white).hex] := by
  have htextColor : textColor (Style.render sheet) = .ok (text.getD .black).hex := by
    rw [textColor, resolve_declaredColor_render, ← comparedText, htext]
    rfl
  have hgroundColor : backgroundColor (Style.render sheet) = .ok (ground.getD .white).hex := by
    rw [backgroundColor, resolve_declaredColor_render, ← comparedGround, hground]
    rfl
  obtain ⟨c, hc⟩ := Contrast.exists_compute htext hground
  have hresolved := (Contrast.compute_resolved htext hground).trans hc
  rw [contrast, htextColor, hgroundColor]
  dsimp only [bind, Except.bind]
  rw [hresolved]
  exact ⟨_, c, rfl, hc, rfl, rfl⟩

theorem contrast_render_of_error {fault : Fault}
    (h : Color.parse (comparedText sheet) = .error fault ∨
      (∃ text, Color.parse (comparedText sheet) = .ok text) ∧ Color.parse (comparedGround sheet) = .error fault) :
    contrast (Style.render sheet) = .error fault ∧
      Contrast.compute (comparedText sheet) (comparedGround sheet) = .error fault := by
  rw [contrast, textColor, backgroundColor, resolve_declaredColor_render, resolve_declaredColor_render, ← comparedText,
    ← comparedGround, Contrast.compute, Contrast.ratio?]
  rcases h with htext | ⟨⟨text, htext⟩, hground⟩
  · rw [htext]
    exact ⟨rfl, rfl⟩
  · rw [htext, hground]
    exact ⟨rfl, rfl⟩

end Sheet

/-- Whether the check of a sheet gives a verdict depends only on whether its two declared values can be compared. The
verdict names the colours that the first declarations stand for and is that of the comparison. -/
theorem contrast_of_sheet (sheet : List Style.Declaration) :
    ((∃ v, verify (Style.render sheet) (.ofValue (.text "contrast".toList)) = .ok v) ↔
      ∃ c, Contrast.compute (comparedText sheet) (comparedGround sheet) = .ok c) ∧
    ∀ v, verify (Style.render sheet) (.ofValue (.text "contrast".toList)) = .ok v → ∃ text ground c,
      Color.DeclaredAs .black (firstValue? .color sheet) text ∧
      Color.DeclaredAs .white (firstValue? .background sheet) ground ∧
      v.details = ["Text color: " ++ String.ofList text.hex, "Background color: " ++ String.ofList ground.hex] ∧
      Contrast.compute (comparedText sheet) (comparedGround sheet) = .ok c ∧ v.passed = c.passes := by
  have hverify : verify (Style.render sheet) (.ofValue (.text "contrast".toList)) = contrast (Style.render sheet) := rfl
  rw [hverify]
  cases htext : Color.parse (comparedText sheet) with
  | error fault =>
      obtain ⟨hcontrast, hcompute⟩ := contrast_render_of_error (.inl htext)
      simp [hcontrast, hcompute]
  | ok text =>
      cases hground : Color.parse (comparedGround sheet) with
      | error fault =>
          obtain ⟨hcontrast, hcompute⟩ := contrast_render_of_error (.inr ⟨⟨text, htext⟩, hground⟩)
          simp [hcontrast, hcompute]
      | ok ground =>
          obtain ⟨v, c, hcontrast, hcompute, hpassed, hdetails⟩ := contrast_render_of_parse htext hground
          refine ⟨⟨fun _ => ⟨c, hcompute⟩, fun _ => ⟨v, hcontrast⟩⟩, fun v' hv' => ?_⟩
          obtain rfl : v = v' := Except.ok.inj (hcontrast.symm.trans hv')
          exact ⟨_, _, c, (Color.declaredAs_iff htext).mpr rfl, (Color.declaredAs_iff hground).mpr rfl, hdetails,
            hcompute, hpassed⟩

/-- A longer name, capitals, a background that is not understood, and a second background. -/
def mixedSheet : List Style.Declaration := [
  ⟨"border-color".toList, "blue".toList, by decide, List.all_eq_true.mp (by decide), ⟨'b', by decide⟩,
    List.all_eq_true.mp (by decide)⟩,
  ⟨"Color".toList, " RED".toList, by decide, List.all_eq_true.mp (by decide), ⟨'R', by decide⟩,
    List.all_eq_true.mp (by decide)⟩,
  ⟨"BACKGROUND".toList, "tile".toList, by decide, List.all_eq_true.mp (by decide), ⟨'t', by decide⟩,
    List.all_eq_true.mp (by decide)⟩,
  ⟨"background-color".toList, "black".toList, by decide, List.all_eq_true.mp (by decide), ⟨'b', by decide⟩,
    List.all_eq_true.mp (by decide)⟩]

theorem contrast_of_sheet_mixed :
    Style.render mixedSheet = "border-color: blue; Color:  RED; BACKGROUND: tile; background-color: black; ".toList ∧
      ∃ v c, verify (Style.render mixedSheet) (.ofValue (.text "contrast".toList)) = .ok v ∧
        v.details = ["Text color: #ff0000", "Background color: #ffffff"] ∧
        Contrast.compute (.text " RED".toList) (.text "tile".toList) = .ok c ∧ v.passed = c.passes := by
  have hcolor : firstValue? .color mixedSheet = some " RED".toList := by decide +kernel
  have hbackground : firstValue? .background mixedSheet = some "tile".toList := by decide +kernel
  have hred : Color.parse (.ofDeclared .black (some " RED".toList)) = .ok (some ⟨255, 0, 0⟩) := rfl
  have htile : Color.parse (.ofDeclared .white (some "tile".toList)) = .ok none := rfl
  obtain ⟨hreturns, hverdict⟩ := contrast_of_sheet mixedSheet
  rw [comparedText, comparedGround, hcolor, hbackground] at hreturns hverdict
  obtain ⟨v, hv⟩ := hreturns.mpr (Contrast.exists_compute hred htile)
  obtain ⟨text, ground, c, htext, hground, hdetails, hc, hpassed⟩ := hverdict v hv
  refine ⟨by decide +kernel, v, c, hv, ?_, hc, hpassed⟩
  rw [hdetails, (Color.declaredAs_iff hred).mp htext, (Color.declaredAs_iff htile).mp hground]
  decide +kernel

end Exercise

end Accessibility
