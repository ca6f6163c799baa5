import Accessibility.Audit.Report
import Accessibility.Markup.Attribute
import Accessibility.Markup.Tag
import Accessibility.Text.Blank

/-! # Labels of inputs -/

namespace Accessibility.Audit.Forms

def inputs (page : Text) : List Text :=
  (Tag.findAll .input page).map (·.raw)

def labels (page : Text) : List Text :=
  (Tag.findAll .label page).map (·.raw)

/-- The identifiers that labels are for, wherever on the page they stand. -/
def targets (page : Text) : List Text :=
  (labels page).filterMap (Attribute.value? "for".toList)

/-- Hidden inputs need no label. -/
def isHidden (input : Text) : Bool :=
  match Attribute.value? "type".toList input with
  | none => false
  | some kind => Text.lower (Text.strip kind) == "hidden".toList

/-- Enters what is wrong with one input. A placeholder in the place of an identifier is a second issue. -/
def judge (targets : List Text) (l : Ledger) : Text × Nat → Ledger
  | (input, number) =>
    if isHidden input then l
    else
      let id := Attribute.value? "id".toList input
      let l :=
        match id with
        | none => (l.add (.inputUnidentified number input)).charge Penalty.inputUnidentified
        | some id =>
          if targets.contains id then l
          else (l.add (.inputUnlabelled number input id)).charge Penalty.inputUnlabelled
      if id.isNone && (Attribute.value? "placeholder".toList input).isSome then
        (l.add (.placeholderAsLabel number input)).charge Penalty.placeholderAsLabel
      else l

def report (page : Text) : Report :=
  let found := inputs page
  let counts := [("input_count", found.length), ("label_count", (labels page).length)]
  if found.isEmpty then { counts := counts }
  else ((found.zipIdx 1).foldl (judge (targets page)) .opening).close counts

end Accessibility.Audit.Forms
