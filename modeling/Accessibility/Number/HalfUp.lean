import Accessibility.Fault
import Accessibility.Number.Binary64

/-! # Rounding with halves going up

A value is scaled by a power of ten, a half is added, and the floor of that is scaled back. Integers are scaled
exactly where the power is an integer, and everything else is rounded as floating point demands. -/

namespace Accessibility

/-- A number that is given exactly or in floating point. -/
inductive Quantity
  | integer (n : Int)
  | real (x : Float)

namespace Quantity

open Binary64

/-- The floating-point number nearest to an integer. -/
def ofInteger (n : Int) : Except Fault Float :=
  match ofQuotient? n.natAbs 1 with
  | some x => .ok (x.toFloat (n < 0))
  | none => .error .integerTooLarge

/-- The quotient of two integers in floating point; `d` is not zero. -/
def quotient (n : Int) (d : Nat) : Except Fault Float :=
  match ofQuotient? n.natAbs d with
  | some x => .ok (x.toFloat (n < 0))
  | none => .error .quotientTooLarge

/-- The largest integer that is at most `x`. -/
def floor (x : Float) : Except Fault Int :=
  match read x with
  | .nan => .error .floorOfNaN
  | .infinite _ => .error .floorOfInfinity
  | .finite negative size =>
    let n := size.mantissa * twoTo size.exponent.toNat
    let d := twoTo (-size.exponent).toNat
    .ok (if negative then -((n + (d - 1)) / d : Nat) else (n / d : Nat))

/-- Rounds to a number of decimal places, which may be negative. -/
def roundHalfUp (value : Quantity) (places : Int) : Except Fault Float := do
  if 0 ≤ places then
    let factor : Nat := tenTo places.toNat
    let scaled ← match value with
      | .integer n => ofInteger (n * factor)
      | .real x => (x * ·) <$> ofInteger factor
    quotient (← floor (scaled + 0.5)) factor
  else
    let factor := Float.pow 10.0 (← ofInteger places)
    let scaled ← match value with
      | .integer n => (· * factor) <$> ofInteger n
      | .real x => pure (x * factor)
    let whole ← ofInteger (← floor (scaled + 0.5))
    if factor == 0.0 then .error .divisionByZero else pure (whole / factor)

end Quantity

end Accessibility
