import Accessibility.Exercise.Verdict
import Accessibility.Markup.Attribute
import Accessibility.Number.Numeral

/-! # Exercises about the keyboard: tab order and skip links -/

namespace Accessibility.Exercise

/-- The digits of a tab index. A line feed may follow them; values of any other form are ignored. -/
def tabIndexDigits? (value : Text) : Option Text :=
  let run := if value.getLast? = some '\n' then value.dropLast else value
  if !run.isEmpty && run.all Text.isDigit then some run else none

/-- The tab indices in the order of the page. -/
def tabIndices (page : Text) : Except Fault (List Nat) :=
  ((Attribute.values "tabindex".toList page).filterMap tabIndexDigits?).mapM Numeral.readRun

/-- Tab indices are in order if they are the numbers from one on, wherever each stands. -/
def isTabOrder (indices : List Nat) : Bool :=
  indices.mergeSort == List.range' 1 indices.length

def tabOrder (page : Text) : Except Fault Verdict := do
  let indices ← tabIndices page
  if isTabOrder indices then
    return {
      passed := true
      message := "Perfect! Tab order follows logical sequence"
      details := [s!"Found {indices.length} elements with proper tab order"]
      announcement := some "Tab navigation flows logically through the form" }
  else
    return {
      passed := false
      message := "Tab order should be sequential (1, 2, 3, 4...)"
      details := ["Use tabindex values in logical order", "Start with tabindex='1' for first element"]
      announcement := some "Tab order is confusing" }

/-- The identifiers that a skip link may lead to. -/
def skipTargets : List Text := ["main-content".toList, "main".toList]

/-- The target of a skip link, if the link is one. -/
def skipTarget? : Text → Option Text
  | '#' :: target => if target ∈ skipTargets then some target else none
  | _ => none

def skipLink (page : Text) : Verdict :=
  let targets := (Attribute.values "href".toList page).filterMap skipTarget?
  let ids := Attribute.values "id".toList page
  if targets.isEmpty then
    { passed := false
      message := "Missing skip navigation link"
      details := ["Add a skip link at the beginning", "Use href='#main-content' to link to main content"]
      announcement := some "No skip link available" }
  else if targets.any ids.contains then
    { passed := true
      message := "Excellent! Skip link is properly implemented"
      details := ["Keyboard users can now skip to main content"]
      announcement := some "Skip to main content link available" }
  else
    { passed := false
      message := "Skip link target not found"
      details := ["Add id='main-content' to the main content area", "Ensure skip link has a valid target"]
      announcement := some "Skip link target missing" }

end Accessibility.Exercise
