import Accessibility.Json.Basic
import Accessibility.Text.Basic

/-! # Issues

An issue says which rule is broken and where, how grave that is, and what to do about it. -/

namespace Accessibility.Audit

/-- Errors fail a page and warnings do not. An information is advice only; no issue is one so far. -/
inductive Severity
  | error
  | warning
  | info
  deriving Repr, DecidableEq

def Severity.name : Severity → String
  | error => "error"
  | warning => "warning"
  | info => "info"

inductive Rule
  | altMissing
  | altEmpty
  | altShort
  | altRedundant
  | headingsMissing
  | topHeadingRepeated
  | topHeadingMissing
  | levelSkipped
  | headingEmpty
  | inputUnidentified
  | inputUnlabelled
  | placeholderAsLabel
  | buttonUnnamed
  | attributeUnknown
  deriving Repr, DecidableEq

namespace Rule

def id : Rule → String
  | altMissing => "img-alt"
  | altEmpty => "img-alt-empty"
  | altShort => "img-alt-short"
  | altRedundant => "img-alt-redundant"
  | headingsMissing => "heading-missing"
  | topHeadingRepeated => "heading-h1-multiple"
  | topHeadingMissing => "heading-h1-missing"
  | levelSkipped => "heading-skip-level"
  | headingEmpty => "heading-empty"
  | inputUnidentified => "input-id-missing"
  | inputUnlabelled => "input-label-missing"
  | placeholderAsLabel => "placeholder-label"
  | buttonUnnamed => "button-accessible-name"
  | attributeUnknown => "aria-invalid-attribute"

end Rule

/-- A broken rule, with the number of the image, heading or input on the page and with its source. -/
inductive Issue
  | altMissing (number : Nat) (image : Text)
  | altEmpty (number : Nat) (image : Text)
  | altShort (number : Nat) (image : Text)
  | altRedundant (number : Nat) (image : Text)
  | headingsMissing
  | topHeadingRepeated (count : Nat)
  | topHeadingMissing
  | levelSkipped (above below : Nat) (heading : Text)
  | headingEmpty (number : Nat) (heading : Text)
  | inputUnidentified (number : Nat) (input : Text)
  | inputUnlabelled (number : Nat) (input id : Text)
  | placeholderAsLabel (number : Nat) (input : Text)
  | buttonUnnamed (button : Text)
  | attributeUnknown (name : Text)
  deriving Repr, DecidableEq

namespace Issue

def rule : Issue → Rule
  | altMissing .. => .altMissing
  | altEmpty .. => .altEmpty
  | altShort .. => .altShort
  | altRedundant .. => .altRedundant
  | headingsMissing => .headingsMissing
  | topHeadingRepeated .. => .topHeadingRepeated
  | topHeadingMissing => .topHeadingMissing
  | levelSkipped .. => .levelSkipped
  | headingEmpty .. => .headingEmpty
  | inputUnidentified .. => .inputUnidentified
  | inputUnlabelled .. => .inputUnlabelled
  | placeholderAsLabel .. => .placeholderAsLabel
  | buttonUnnamed .. => .buttonUnnamed
  | attributeUnknown .. => .attributeUnknown

def severity : Issue → Severity
  | altMissing .. => .error
  | altEmpty .. => .warning
  | altShort .. => .warning
  | altRedundant .. => .warning
  | headingsMissing => .warning
  | topHeadingRepeated .. => .error
  | topHeadingMissing => .warning
  | levelSkipped .. => .warning
  | headingEmpty .. => .error
  | inputUnidentified .. => .warning
  | inputUnlabelled .. => .error
  | placeholderAsLabel .. => .warning
  | buttonUnnamed .. => .error
  | attributeUnknown .. => .warning

/-- The source that the issue is about; some are about the page as a whole. -/
def element : Issue → Option Text
  | altMissing _ image | altEmpty _ image | altShort _ image | altRedundant _ image => some image
  | headingsMissing | topHeadingRepeated _ | topHeadingMissing => none
  | levelSkipped _ _ heading | headingEmpty _ heading => some heading
  | inputUnidentified _ input | inputUnlabelled _ input _ | placeholderAsLabel _ input => some input
  | buttonUnnamed button => some button
  | attributeUnknown name => some name

def message : Issue → String
  | altMissing number _ => s!"Image {number} is missing alt attribute"
  | altEmpty number _ => s!"Image {number} has empty alt text"
  | altShort number _ => s!"Image {number} has very short alt text"
  | altRedundant number _ => s!"Image {number} alt text contains redundant words"
  | headingsMissing => "No headings found"
  | topHeadingRepeated count => s!"Found {count} h1 elements, should have only one"
  | topHeadingMissing => "No h1 element found"
  | levelSkipped above below _ => s!"Heading level jumps from h{above} to h{below}"
  | headingEmpty number _ => s!"Heading {number} is empty"
  | inputUnidentified number _ => s!"Input {number} missing id attribute"
  | inputUnlabelled number _ _ => s!"Input {number} has no associated label"
  | placeholderAsLabel number _ => s!"Input {number} uses placeholder as label"
  | buttonUnnamed _ => "Button has no accessible name"
  | attributeUnknown name => "Unknown ARIA attribute: " ++ String.ofList name

def suggestion : Issue → String
  | altMissing .. => "Add alt=\"descriptive text\" to describe the image content"
  | altEmpty .. => "If decorative, empty alt is fine. If meaningful, add description."
  | altShort .. => "Provide more descriptive alt text"
  | altRedundant .. => "Remove words like \"image\" or \"picture\" from alt text"
  | headingsMissing => "Add headings to structure your content"
  | topHeadingRepeated .. => "Use only one h1 per page for the main title"
  | topHeadingMissing => "Add an h1 element for the main page title"
  | levelSkipped .. => "Don't skip heading levels (e.g., h2 should follow h1, not h3)"
  | headingEmpty .. => "Add descriptive text to all headings"
  | inputUnidentified .. => "Add id attribute to associate with label"
  | inputUnlabelled _ _ id => "Add <label for=\"" ++ String.ofList id ++ "\">Label text</label>"
  | placeholderAsLabel .. => "Use proper label element instead of relying on placeholder"
  | buttonUnnamed .. => "Add aria-label=\"description\" or text content to button"
  | attributeUnknown .. => "Check ARIA attribute spelling and validity"

def toJson (i : Issue) : Json :=
  .object [
    ("element", Json.ofOption (.text ∘ String.ofList) i.element),
    ("message", .text i.message),
    ("rule", .text i.rule.id),
    ("severity", .text i.severity.name),
    ("suggestion", .text i.suggestion)]

end Issue

end Accessibility.Audit
