import Accessibility.Number.Power

/-! # Rounding to binary floating point

Quotients and square roots are rounded here in exact integer arithmetic, to the nearest number of 53 binary
digits and with ties to the even one. -/

namespace Accessibility.Binary64

/-- The number `mantissa * 2 ^ exponent`. -/
structure Magnitude where
  mantissa : Nat
  exponent : Int
  deriving Repr, DecidableEq

/-- The integer nearest to `n / d`; of two, the even one. -/
def nearest (n d : Nat) : Nat :=
  let twice := 2 * (n % d)
  if d < twice ∨ (twice = d ∧ n / d % 2 = 1) then n / d + 1 else n / d

/-- The exponent of the largest power of two that is at most `n / d`. -/
def floorLog (n d : Nat) : Int :=
  let k : Int := n.log2 - d.log2
  if d * twoTo k.toNat ≤ n * twoTo (-k).toNat then k else k - 1

/-- The exponent of the last of the 53 digits of `n / d`. It does not fall below that of the smallest number. -/
def lastPlace (n d : Nat) : Int :=
  max (floorLog n d - 52) (-1074)

/-- `n / d` rounded, unless it is too large. -/
def ofQuotient? (n d : Nat) : Option Magnitude :=
  let e := lastPlace n d
  let m := nearest (n * twoTo (-e).toNat) (d * twoTo e.toNat)
  if twoTo 1024 ≤ m * twoTo e.toNat then none else some ⟨m, e⟩

/-- The largest number whose square is at most `n`. -/
def floorSqrt (n : Nat) : Nat :=
  if h : n = 0 then 0
  else
    let r := 2 * floorSqrt (n / 4)
    if (r + 1) * (r + 1) ≤ n then r + 1 else r
termination_by n
decreasing_by omega

namespace Magnitude

def floor (x : Magnitude) : Nat :=
  x.mantissa * twoTo x.exponent.toNat / twoTo (-x.exponent).toNat

/-- The number and a half, rounded, unless that is too large. -/
def plusHalf? (x : Magnitude) : Option Magnitude :=
  let unit := twoTo (-x.exponent).toNat
  ofQuotient? (2 * (x.mantissa * twoTo x.exponent.toNat) + unit) (2 * unit)

/-- The square root, rounded. The radicand is scaled so that its root has more digits than are kept; a half stands for
what the root lacks, which decides a tie as the root itself would. -/
def sqrt (x : Magnitude) : Magnitude :=
  let shift : Nat := if x.exponent % 2 = 0 then 110 else 111
  let n := x.mantissa * twoTo shift
  let r := floorSqrt n
  let twice := if r * r = n then 2 * r else 2 * r + 1
  let e := (x.exponent - shift) / 2 - 1
  (ofQuotient? (twice * twoTo e.toNat) (twoTo (-e).toNat)).getD ⟨0, 0⟩

/-- The bit pattern of a rounded number. -/
def bits (negative : Bool) (x : Magnitude) : UInt64 :=
  let n :=
    if x.mantissa < twoTo 52 then x.mantissa
    else (x.exponent + 1075).toNat * twoTo 52 + (x.mantissa - twoTo 52)
  UInt64.ofNat (if negative then twoTo 63 + n else n)

def toFloat (negative : Bool) (x : Magnitude) : Float :=
  Float.ofBits (x.bits negative)

end Magnitude

/-- What a bit pattern stands for. -/
inductive Reading
  | finite (negative : Bool) (size : Magnitude)
  | infinite (negative : Bool)
  | nan

def read (x : Float) : Reading :=
  let n := x.toBits.toNat
  let negative := twoTo 63 ≤ n
  let exponent : Nat := n / twoTo 52 % twoTo 11
  let fraction := n % twoTo 52
  if exponent = 2047 then
    if fraction = 0 then .infinite negative else .nan
  else if exponent = 0 then .finite negative ⟨fraction, -1074⟩
  else .finite negative ⟨twoTo 52 + fraction, (exponent : Int) - 1075⟩

end Accessibility.Binary64
