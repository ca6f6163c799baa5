import Accessibility.Audit.Images
import Accessibility.Exercise.Verdict

/-! # Exercises about text alternatives -/

namespace Accessibility.Exercise

/-- Every alternative on the page, whatever it belongs to. -/
def alternatives (page : Text) : List Text :=
  Attribute.values "alt".toList page

/-- A meaningful alternative has more characters than this. -/
def alternativeLength : Nat := 8

def isMeaningful (alternative : Text) : Bool :=
  alternativeLength < alternative.length && !Audit.isRedundant alternative

/-- The check of an exercise that is not known: there are alternatives, and none of them is empty. -/
def generic (page : Text) : Verdict :=
  let alts := alternatives page
  if !alts.isEmpty && !alts.contains [] then
    { passed := true, message := "Test passed!" }
  else
    { passed := false, message := "Test failed - check your code" }

def altText (page : Text) : Verdict :=
  let alts := alternatives page
  let meaningful := alts.filter isMeaningful
  if alts.contains [] then
    { passed := false
      message := "Some images still have empty alt attributes"
      details := ["Empty alt=\"\" found - add descriptive text"]
      announcement := some "Image, no description available" }
  else
    match alts with
    | [] =>
      { passed := false
        message := "Images need alt attributes for screen readers"
        details := ["Add alt=\"description\" to all img tags"]
        announcement := some "Image, no description available" }
    | first :: _ =>
      if meaningful.length < alts.length then
        { passed := false
          message := "Alt text should be more descriptive"
          details := ["Avoid generic words like 'image' or 'picture'", "Describe what you see in the image"]
          announcement := some "Image, generic description" }
      else
        { passed := true
          message := "Perfect! All images have descriptive alt text"
          details := [s!"Found {meaningful.length} well-described images"]
          announcement := some (String.ofList first) }

end Accessibility.Exercise
