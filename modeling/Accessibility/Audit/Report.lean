import Accessibility.Audit.Issue

/-! # Reports

A report starts from a full score. What is found is added to its issues, and a penalty is taken off the score
separately. The score may fall below nothing as long as the report is open; when it is closed, less than nothing
counts as nothing. Only errors fail a report. -/

namespace Accessibility.Audit

/-- How many issues have a severity. -/
def countOf (s : Severity) (issues : List Issue) : Nat :=
  issues.countP (·.severity = s)

def fullScore : Nat := 100

/-- The score of a page that has no headings at all. -/
def noHeadingsScore : Nat := 80

namespace Penalty

def altMissing : Nat := 30
def altEmpty : Nat := 5
def altShort : Nat := 10
def altRedundant : Nat := 10
def topHeadingRepeated : Nat := 25
def topHeadingMissing : Nat := 15
def levelSkipped : Nat := 10
def headingEmpty : Nat := 15
def inputUnidentified : Nat := 10
def inputUnlabelled : Nat := 20
def placeholderAsLabel : Nat := 15
def buttonUnnamed : Nat := 25
def attributeUnknown : Nat := 5

end Penalty

structure Report where
  passed : Bool := true
  score : Nat := fullScore
  issues : List Issue := []
  counts : List (String × Nat)
  deriving Repr, DecidableEq

/-- An open report. -/
structure Ledger where
  issues : List Issue
  balance : Int

namespace Ledger

def opening : Ledger := ⟨[], fullScore⟩

def add (l : Ledger) (i : Issue) : Ledger :=
  { l with issues := l.issues ++ [i] }

def charge (l : Ledger) (penalty : Nat) : Ledger :=
  { l with balance := l.balance - penalty }

def close (l : Ledger) (counts : List (String × Nat)) : Report where
  passed := !l.issues.any (·.severity = .error)
  score := l.balance.toNat
  issues := l.issues
  counts := counts

end Ledger

namespace Report

/-- The members of a report in the order of their names. -/
def toJson (r : Report) : Json :=
  .object [
    ("details", .object (r.counts.map fun (name, n) => (name, .ofNat n))),
    ("issues", .array (r.issues.map Issue.toJson)),
    ("passed", .bool r.passed),
    ("score", .ofNat r.score)]

end Report

end Accessibility.Audit
