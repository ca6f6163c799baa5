import Accessibility.Progress.Date

/-! # Streaks of active days -/

namespace Accessibility

/-- The current and the longest run of active days. -/
structure Streak where
  current : Int := 0
  longest : Int := 0
  deriving Repr, DecidableEq

namespace Streak

/-- The ordinal of the latest date. -/
def latest? (dates : List Date) : Option Nat :=
  (dates.map (·.ordinal)).max?

/-- Whether the latest date is more than a day before today. -/
def isBroken (dates : List Date) (today : Date) : Bool :=
  match latest? dates with
  | none => false
  | some latest => latest + 1 < today.ordinal

/-- The streak grows with activity today if it goes on from yesterday or starts anew, and ends when the latest
activity is too long ago. -/
def nextCurrent (current : Int) (dates : List Date) (today : Date) : Except Fault Int :=
  if today ∈ dates then
    today.previous.map fun yesterday => if yesterday ∈ dates ∨ current = 0 then current + 1 else current
  else .ok (if isBroken dates today then 0 else current)

def advance (s : Streak) (dates : List Date) (today : Date) : Except Fault Streak :=
  (nextCurrent s.current dates today).map fun current => { current, longest := max s.longest current }

end Streak

end Accessibility
