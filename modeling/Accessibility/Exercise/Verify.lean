import Accessibility.Exercise.Activity
import Accessibility.Exercise.Images
import Accessibility.Exercise.Keyboard
import Accessibility.Exercise.Labels
import Accessibility.Exercise.Outline
import Accessibility.Exercise.Style

/-! # Checking an exercise -/

namespace Accessibility

namespace Exercise

def check (page : Text) : Activity → Except Fault Verdict
  | .altText => .ok (altText page)
  | .heading => .ok (heading page)
  | .contrast => contrast page
  | .tabOrder => tabOrder page
  | .focus => .ok (focus page)
  | .skipLink => .ok (skipLink page)
  | .ariaLabel => .ok (ariaLabel page)
  | .formLabel => .ok (formLabel page)
  | .liveRegion => .ok (liveRegion page)
  | .responsive => .ok (responsive page)
  | .motion => .ok (motion page)
  | .captions => .ok (captions page)

def verify (page : Text) : Activity.Request → Except Fault Verdict
  | .known a => check page a
  | .unknown _ => .ok (generic page)

end Exercise

namespace Journal

def exerciseRecord (level : Level) (message : String) : Record where
  source := "accessiquest.activities"
  level := level
  message := message

/-- What resolving the two declared colours records. Resolved colours are understood, so comparing them adds
nothing. -/
def ofDeclaredColors (page : Text) : List Record :=
  let first := ofResolve (Exercise.declaredColor .color .black page) Color.black.hex
  match Exercise.textColor page with
  | .error _ => first
  | .ok _ => first ++ ofResolve (Exercise.declaredColor .background .white page) Color.white.hex

/-- What checking an exercise records: of a check that gives no verdict, what was recorded before. -/
def ofVerify (page : Text) : Activity.Request → List Record
  | .unknown shown =>
    [exerciseRecord .warning ("Unknown activity type " ++ shown ++ ", using generic check")]
  | .known a =>
    let before := if a = .contrast then ofDeclaredColors page else []
    match Exercise.check page a with
    | .error _ => before
    | .ok v =>
      let passed := if v.passed then "True" else "False"
      before ++ [exerciseRecord .debug s!"Activity {a.tag}: passed={passed}"]

end Journal

end Accessibility
