import Accessibility.Audit.Report
import Accessibility.Markup.Attribute
import Accessibility.Markup.Tag

/-! # Text alternatives of images -/

namespace Accessibility.Audit

/-- Texts that say no more than that there is an image. -/
def redundantWords : List Text := ["image".toList, "picture".toList]

def isRedundant (alternative : Text) : Bool :=
  redundantWords.any (Text.mentions · (Text.lower alternative))

namespace Images

/-- Alternatives with fewer characters are very short. -/
def leastLength : Nat := 3

/-- Enters what is wrong with the text alternative of one image. -/
def judge (l : Ledger) : Text × Nat → Ledger
  | (image, number) =>
    match Attribute.value? "alt".toList image with
    | none => (l.add (.altMissing number image)).charge Penalty.altMissing
    | some alternative =>
      if alternative.isEmpty then (l.add (.altEmpty number image)).charge Penalty.altEmpty
      else if alternative.length < leastLength then (l.add (.altShort number image)).charge Penalty.altShort
      else if isRedundant alternative then (l.add (.altRedundant number image)).charge Penalty.altRedundant
      else l

def sources (page : Text) : List Text :=
  (Tag.findAll .img page).map (·.raw)

def report (page : Text) : Report :=
  let images := sources page
  if images.isEmpty then { counts := [("image_count", 0)] }
  else ((images.zipIdx 1).foldl judge .opening).close [("image_count", images.length)]

end Images

end Accessibility.Audit
