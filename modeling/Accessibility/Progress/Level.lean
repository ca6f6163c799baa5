import Accessibility.Fault
import Accessibility.Number.Binary64

/-! # Experience and levels

A level is reached with five hundred times the square of the levels below it. The level of an amount of experience
is read off the square root of that quotient in floating point. -/

namespace Accessibility.Level

def step : Nat := 500

/-- The level of an amount of experience; a debt counts as nothing. -/
def ofExperience (experience : Int) : Except Fault Nat :=
  match Binary64.ofQuotient? experience.toNat step with
  | none => .error .quotientTooLarge
  | some x => .ok (x.sqrt.floor + 1)

/-- The experience with which the next level starts. -/
def nextAt (level : Int) : Int :=
  level * level * step

end Accessibility.Level
