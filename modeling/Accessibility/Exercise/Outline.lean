import Accessibility.Exercise.Verdict
import Accessibility.Markup.Element

/-! # The exercise about headings -/

namespace Accessibility.Exercise

/-- The opening tags of headings with their levels. -/
def headings (page : Text) : List (Tag × Nat) :=
  (Tag.findAll .heading page).map fun tag => (tag, tag.level?.getD 0)

def levels (page : Text) : List Nat :=
  (headings page).map (·.2)

/-- Whether a level is more than one below the level before it. -/
def skips (levels : List Nat) : Bool :=
  (levels.zip levels.tail).any fun (above, below) => above + 1 < below

/-- What is announced of a heading. -/
def outlineEntry (page : Text) : Tag × Nat → String
  | (tag, level) =>
    let text := Text.strip (leadingText page tag.stop)
    s!"level {level}: " ++ (if text.isEmpty then "heading" else String.ofList text)

def heading (page : Text) : Verdict :=
  let ls := levels page
  if 1 < ls.count 1 then
    { passed := false
      message := "Page should have only one h1 element"
      details := ["Use h1 for main title, h2-h6 for subsections"]
      announcement := some "Multiple main headings found - confusing for navigation" }
  else if ls.count 1 = 0 then
    { passed := false
      message := "Page needs an h1 element for the main title"
      details := ["Add an h1 tag for the main page title"]
      announcement := some "No main heading found" }
  else if skips ls then
    { passed := false
      message := "Heading levels should not skip (e.g., h1 → h3)"
      details := ["Use sequential heading levels: h1 → h2 → h3", "Don't skip from h1 directly to h3"]
      announcement := some "Heading structure is confusing - levels are skipped" }
  else
    { passed := true
      message := "Great! Heading structure is logical and accessible"
      details := [s!"Found {ls.length} properly structured headings"]
      announcement := some ("Heading structure: " ++ ", ".intercalate ((headings page).map (outlineEntry page))) }

end Accessibility.Exercise
