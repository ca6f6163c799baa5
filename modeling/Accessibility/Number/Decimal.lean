import Accessibility.Number.Binary64

/-! # Decimal numbers -/

namespace Accessibility

open Binary64

/-- The number `digits * 10 ^ exponent`, with its sign. -/
structure Decimal where
  negative : Bool
  digits : Nat
  exponent : Int
  deriving Repr, DecidableEq

namespace Decimal

/-- The number without its sign as a fraction. -/
def fraction (d : Decimal) : Nat × Nat :=
  (d.digits * tenTo d.exponent.toNat, tenTo (-d.exponent).toNat)

/-- At least the exponent of the largest power of ten in the number: three binary digits are less than one decimal
digit. -/
def size (d : Decimal) : Int :=
  d.digits.log2 / 3 + d.exponent

def infinity (negative : Bool) : Float :=
  (if negative then -1.0 else 1.0) / 0.0

/-- The floating-point number nearest to a decimal. Exponents far outside the range are settled without writing the
number out. -/
def toFloat (d : Decimal) : Float :=
  if d.digits = 0 ∨ d.size < -400 then Magnitude.toFloat d.negative ⟨0, 0⟩
  else if 400 < d.exponent then infinity d.negative
  else
    match ofQuotient? d.fraction.1 d.fraction.2 with
    | some x => x.toFloat d.negative
    | none => infinity d.negative

end Decimal

end Accessibility
