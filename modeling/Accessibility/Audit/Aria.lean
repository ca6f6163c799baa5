import Accessibility.Audit.Report
import Accessibility.Markup.Attribute
import Accessibility.Markup.Element

/-! # Names of buttons and accessibility attributes -/

namespace Accessibility.Audit.Aria

/-- The attributes that are known. -/
def known : List Text := [
  "aria-label".toList,
  "aria-labelledby".toList,
  "aria-describedby".toList,
  "aria-hidden".toList,
  "aria-expanded".toList,
  "aria-live".toList,
  "aria-atomic".toList,
  "aria-relevant".toList,
  "aria-busy".toList,
  "aria-disabled".toList,
  "aria-invalid".toList,
  "aria-required".toList]

/-- A button is named by its text or by a label of its own. -/
def isNamed (button : Element) : Bool :=
  !(Text.strip button.text).isEmpty || Attribute.isGiven "aria-label".toList button.openTag

def judgeButton (l : Ledger) (button : Element) : Ledger :=
  if isNamed button then l else (l.add (.buttonUnnamed button.raw)).charge Penalty.buttonUnnamed

def judgeAttribute (l : Ledger) (name : Text) : Ledger :=
  if known.contains name then l else (l.add (.attributeUnknown name)).charge Penalty.attributeUnknown

def report (page : Text) : Report :=
  let names := Attribute.ariaNames page
  let l := (Element.findAll .button page).foldl judgeButton .opening
  (names.foldl judgeAttribute l).close [("aria_attribute_count", names.length)]

end Accessibility.Audit.Aria
