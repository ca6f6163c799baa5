import Accessibility.Value

/-! # Exercises -/

namespace Accessibility

/-- The exercises that have a check of their own. -/
inductive Activity
  | altText
  | heading
  | contrast
  | tabOrder
  | focus
  | skipLink
  | ariaLabel
  | formLabel
  | liveRegion
  | responsive
  | motion
  | captions
  deriving Repr, DecidableEq

namespace Activity

def all : List Activity := [
  altText, heading, contrast, tabOrder, focus, skipLink, ariaLabel, formLabel, liveRegion, responsive, motion, captions]

def tag : Activity → String
  | altText => "alt-text"
  | heading => "heading"
  | contrast => "contrast"
  | tabOrder => "tab-order"
  | focus => "focus"
  | skipLink => "skip-link"
  | ariaLabel => "aria-label"
  | formLabel => "form-label"
  | liveRegion => "live-region"
  | responsive => "responsive"
  | motion => "motion"
  | captions => "captions"

def ofTag? (tag : Text) : Option Activity :=
  all.find? (·.tag.toList == tag)

/-- What is asked for: an exercise, or something else that is known by how it is shown. -/
inductive Request
  | known (a : Activity)
  | unknown (shown : String)
  deriving Repr, DecidableEq

def Request.ofValue : Value → Request
  | .other shown => .unknown shown
  | .text tag =>
    match ofTag? tag with
    | some a => .known a
    | none => .unknown (Value.text tag).shown

def Request.shown : Request → String
  | .known a => a.tag
  | .unknown shown => shown

end Activity

end Accessibility
