import Accessibility.Color.Contrast
import Accessibility.Exercise.Verdict
import Accessibility.Style.Declaration

/-! # Exercises about style: contrast, focus, zoom and motion -/

namespace Accessibility.Exercise

/-- The declared colour of a property; where none is declared, or nothing is, a default. -/
def declaredColor (p : Style.Property) (default : Color) (page : Text) : Value :=
  match Style.declaration? p page with
  | none | some [] => .text default.hex
  | some value => .text value

def textColor (page : Text) : Except Fault Text :=
  Color.resolve (declaredColor .color .black page) Color.black.hex

def backgroundColor (page : Text) : Except Fault Text :=
  Color.resolve (declaredColor .background .white page) Color.white.hex

def contrast (page : Text) : Except Fault Verdict := do
  let text ← textColor page
  let ground ← backgroundColor page
  let c ← Contrast.compute (.text text) (.text ground)
  let message :=
    if c.passes then s!"Contrast ratio: {c.ratio.shown}:1 - Passes WCAG {c.tier.name} standards"
    else s!"Contrast ratio: {c.ratio.shown}:1 - Fails WCAG standards. Use darker colors."
  return {
    passed := c.passes
    message
    details := ["Text color: " ++ String.ofList text, "Background color: " ++ String.ofList ground] }

/-- Whether a word stands in the lower case of the page. -/
def mentions (word : String) (page : Text) : Bool :=
  Text.mentions word.toList (Text.lower page)

def focus (page : Text) : Verdict :=
  if mentions ":focus" page && (mentions "outline" page || mentions "border" page) then
    { passed := true
      message := "Great! Focus indicators are clearly visible"
      details := ["Focus styles will help keyboard users navigate"]
      announcement := some "Clear focus indicators present" }
  else
    { passed := false
      message := "Missing visible focus indicators"
      details := ["Add :focus styles with outline or border", "Ensure focus indicators are visible"]
      announcement := some "No visible focus indicators" }

def responsive (page : Text) : Verdict :=
  if (Text.first? Style.fixedWidth page).isSome && !mentions "max-width" page then
    { passed := false
      message := "Fixed width prevents proper scaling"
      details := ["Use max-width instead of width", "Allow content to scale with zoom"]
      announcement := some "Content may be cut off when zoomed" }
  else if !(mentions "max-width" page || mentions "max-w-" page) ||
      (Text.first? Style.relativeLength page).isNone then
    { passed := false
      message := "Layout needs to be more flexible for zoom"
      details := ["Use max-width for containers", "Use relative units like rem or em"]
      announcement := some "Layout may not work well when zoomed" }
  else
    { passed := true
      message := "Perfect! Layout supports high zoom levels"
      details := ["Content will remain accessible when zoomed to 200%"]
      announcement := some "Layout works well at high zoom levels" }

def motion (page : Text) : Verdict :=
  if mentions "prefers-reduced-motion" page then
    { passed := true
      message := "Excellent! Respects user motion preferences"
      details := ["Animations will be disabled for sensitive users"]
      announcement := some "Motion preferences respected" }
  else
    { passed := false
      message := "Missing reduced motion support"
      details := ["Add @media (prefers-reduced-motion: reduce)", "Disable animations for sensitive users"]
      announcement := some "Animations may cause discomfort" }

end Accessibility.Exercise
