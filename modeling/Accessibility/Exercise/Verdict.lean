import Accessibility.Json.Basic

/-! # Verdicts on exercises -/

namespace Accessibility

/-- The outcome of an exercise: a message, what to do about it, and what a screen reader would announce. -/
structure Verdict where
  passed : Bool
  message : String
  details : List String := []
  announcement : Option String := none
  deriving Repr, DecidableEq

/-- The members in the order of their names. -/
def Verdict.toJson (v : Verdict) : Json :=
  .object [
    ("announcement", Json.ofOption .text v.announcement),
    ("details", .array (v.details.map .text)),
    ("message", .text v.message),
    ("passed", .bool v.passed)]

end Accessibility
