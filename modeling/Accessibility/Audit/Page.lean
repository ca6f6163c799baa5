import Accessibility.Audit.Aria
import Accessibility.Audit.Forms
import Accessibility.Audit.Headings
import Accessibility.Audit.Images
import Accessibility.Journal.Record
import Accessibility.Number.Binary64

/-! # The audit of a page

Four reports are made independently. The audit has the issues of all of them and the mean of their scores. -/

namespace Accessibility

namespace Audit

/-- The four subjects that are reported on. -/
inductive Subject
  | images
  | headings
  | forms
  | aria
  deriving Repr, DecidableEq

namespace Subject

def all : List Subject := [images, headings, forms, aria]

def name : Subject → String
  | images => "alt_text"
  | headings => "headings"
  | forms => "forms"
  | aria => "aria"

def report : Subject → Text → Report
  | images, page => Images.report page
  | headings, page => Headings.report page
  | forms, page => Forms.report page
  | aria, page => Aria.report page

end Subject

end Audit

/-- The four reports of a page. -/
structure Audit where
  images : Audit.Report
  headings : Audit.Report
  forms : Audit.Report
  aria : Audit.Report
  deriving Repr, DecidableEq

namespace Audit

def ofPage (page : Text) : Audit where
  images := Images.report page
  headings := Headings.report page
  forms := Forms.report page
  aria := Aria.report page

def issues (a : Audit) : List Issue :=
  a.images.issues ++ a.headings.issues ++ a.forms.issues ++ a.aria.issues

/-- The mean of `count` scores that add up to `total`, to which a half is added before it is cut to an integer. The mean
is a floating-point number; for scores of at most a hundred it is never too large. -/
def roundedMean (total count : Nat) : Nat :=
  match Binary64.ofQuotient? total count with
  | none => 0
  | some mean =>
    match mean.plusHalf? with
    | none => 0
    | some raised => raised.floor

def score (a : Audit) : Nat :=
  roundedMean (a.images.score + a.headings.score + a.forms.score + a.aria.score) Subject.all.length

def passed (a : Audit) : Bool :=
  !a.issues.any (·.severity = .error)

def errors (a : Audit) : Nat :=
  countOf .error a.issues

def warnings (a : Audit) : Nat :=
  countOf .warning a.issues

/-- The members in the order of their names. -/
def toJson (a : Audit) : Json :=
  let counts (r : Report) : Json := .object (r.counts.map fun (name, n) => (name, .ofNat n))
  .object [
    ("details", .object [
      ("alt_text", counts a.images),
      ("aria", counts a.aria),
      ("forms", counts a.forms),
      ("headings", counts a.headings)]),
    ("issues", .array (a.issues.map Issue.toJson)),
    ("passed", .bool a.passed),
    ("score", .ofNat a.score)]

end Audit

namespace Journal

def auditRecord (message : String) : Record where
  source := "accessiquest.accessibility"
  level := .debug
  message := message

/-- What one report records. Nothing is recorded of a page without images, headings or inputs. -/
def ofReport (subject : Audit.Subject) (page : Text) : List Record :=
  let found := (subject.report page).issues.length
  match subject with
  | .images =>
    let images := (Audit.Images.sources page).length
    if images = 0 then [] else [auditRecord s!"Alt text: {images} images, {found} issues"]
  | .headings =>
    let headings := Audit.Headings.headings page
    let top := Audit.Headings.topCount headings
    if headings.isEmpty then []
    else [auditRecord s!"Headings: {headings.length} found, {top} h1, {found} issues"]
  | .forms =>
    let inputs := (Audit.Forms.inputs page).length
    let labels := (Audit.Forms.labels page).length
    if inputs = 0 then [] else [auditRecord s!"Forms: {inputs} inputs, {labels} labels, {found} issues"]
  | .aria =>
    [auditRecord s!"ARIA: {(Attribute.ariaNames page).length} attributes, {found} issues"]

def ofAudit (page : Text) : List Record :=
  let a := Audit.ofPage page
  Audit.Subject.all.flatMap (ofReport · page) ++
    [auditRecord s!"Audit complete: score={a.score}, errors={a.errors}, warnings={a.warnings}"]

end Journal

end Accessibility
