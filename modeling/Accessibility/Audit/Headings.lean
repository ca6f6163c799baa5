import Accessibility.Audit.Report
import Accessibility.Markup.Element

/-! # The outline of headings -/

namespace Accessibility.Audit.Headings

/-- A heading with its stripped text. -/
structure Heading where
  level : Nat
  text : Text
  raw : Text
  deriving Repr, DecidableEq

def headings (page : Text) : List Heading :=
  (Element.findAll .heading page).map fun e =>
    { level := e.level?.getD 0, text := Text.strip e.text, raw := e.raw }

/-- How many headings are of the top level. -/
def topCount (hs : List Heading) : Nat :=
  hs.countP (·.level = 1)

/-- There should be one heading of the top level. -/
def judgeTop (count : Nat) (l : Ledger) : Ledger :=
  if 1 < count then (l.add (.topHeadingRepeated count)).charge Penalty.topHeadingRepeated
  else if count = 0 then (l.add .topHeadingMissing).charge Penalty.topHeadingMissing
  else l

/-- A heading should not be more than one level below the one before it. -/
def judgeStep (l : Ledger) : Heading × Heading → Ledger
  | (above, below) =>
    if above.level + 1 < below.level then
      (l.add (.levelSkipped above.level below.level below.raw)).charge Penalty.levelSkipped
    else l

/-- A heading should not be empty. -/
def judgeText (l : Ledger) : Heading × Nat → Ledger
  | (h, number) =>
    if h.text.isEmpty then (l.add (.headingEmpty number h.raw)).charge Penalty.headingEmpty else l

def report (page : Text) : Report :=
  let hs := headings page
  if hs.isEmpty then
    { passed := true
      score := noHeadingsScore
      issues := [.headingsMissing]
      counts := [("h1_count", 0), ("heading_count", 0)] }
  else
    let l := judgeTop (topCount hs) .opening
    let l := (hs.zip hs.tail).foldl judgeStep l
    let l := (hs.zipIdx 1).foldl judgeText l
    l.close [("h1_count", topCount hs), ("heading_count", hs.length)]

end Accessibility.Audit.Headings
