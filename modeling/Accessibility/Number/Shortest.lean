import Accessibility.Number.Decimal

/-! # The shortest decimal form of a floating-point number -/

namespace Accessibility.Shortest

open Binary64

/-- A number as a fraction. -/
def fraction (x : Magnitude) : Nat × Nat :=
  (x.mantissa * twoTo x.exponent.toNat, twoTo (-x.exponent).toNat)

/-- Whether a decimal without a sign is read as the number. -/
def readsAs (d : Decimal) (x : Magnitude) : Bool :=
  match ofQuotient? d.fraction.1 d.fraction.2 with
  | none => false
  | some y => y.bits false == x.bits false

/-- The exponent of the largest power of ten that is at most `n / d`, of those from `low` to `low + steps`. -/
def floorLogTen (n d : Nat) (low : Int) : (steps : Nat) → Int
  | 0 => low
  | steps + 1 =>
    let e := low + (steps + 1)
    if d * tenTo e.toNat ≤ n * tenTo (-e).toNat then e else floorLogTen n d low steps

/-- The decimal with `count` digits that is nearest to `x` among the two beside it, if one of them is read as `x`. A tie
goes to the even one. -/
def withDigits? (x : Magnitude) (count : Nat) : Option Decimal :=
  let (n, d) := fraction x
  let e := floorLogTen n d (-330) 640 - (count - 1)
  let n := n * tenTo (-e).toNat
  let d := d * tenTo e.toNat
  let below : Decimal := ⟨false, n / d, e⟩
  let above : Decimal := ⟨false, n / d + 1, e⟩
  let first := if nearest n d = n / d then below else above
  let second := if nearest n d = n / d then above else below
  if readsAs first x then some first else if readsAs second x then some second else none

/-- The decimal with the fewest digits that is read as `x`; seventeen digits are always enough. -/
def ofMagnitude (x : Magnitude) : Decimal :=
  ((List.range 17).findSome? fun k => withDigits? x (k + 1)).getD ⟨false, 0, 0⟩

end Accessibility.Shortest
