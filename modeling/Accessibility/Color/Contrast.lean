import Accessibility.Color.Basic
import Accessibility.Journal.Record
import Accessibility.Number.HalfUp

/-! # Contrast

The contrast of two colours is the ratio of their luminances, from 1 to 21. It is rounded to hundredths before it is
judged, so that the reported ratio and the judgement always agree. -/

namespace Accessibility

namespace Color

/-- The share of a channel in linear light. -/
def linear (channel : Int) : Float :=
  let c := Float.ofInt channel / 255.0
  if c <= 0.03928 then c / 12.92 else Float.pow ((c + 0.055) / 1.055) 2.4

def luminanceOf (red green blue : Int) : Float :=
  0.2126 * linear red + 0.7152 * linear green + 0.0722 * linear blue

def luminance (c : Color) : Float :=
  luminanceOf c.red.val c.green.val c.blue.val

/-- The ratio of the lighter to the darker colour. Luminances are not negative, and the bit patterns of such
numbers are in the order of the numbers. -/
def contrast (a b : Color) : Float :=
  let x := a.luminance.toBits
  let y := b.luminance.toBits
  (Float.ofBits (max x y) + 0.05) / (Float.ofBits (min x y) + 0.05)

end Color

/-- A contrast ratio in hundredths. -/
structure Ratio where
  hundredths : Nat
  deriving Repr, DecidableEq

namespace Ratio

def round (x : Float) : Ratio :=
  match Quantity.floor (x * 100.0 + 0.5) with
  | .ok n => ⟨n.toNat⟩
  | .error _ => ⟨0⟩

/-- The ratio with as many places as it needs. -/
def shown (r : Ratio) : String :=
  let whole := toString (r.hundredths / 100)
  let tenths := toString (r.hundredths % 100 / 10)
  let rest := toString (r.hundredths % 10)
  if r.hundredths % 100 = 0 then whole
  else if r.hundredths % 10 = 0 then whole ++ "." ++ tenths
  else whole ++ "." ++ tenths ++ rest

def toJson (r : Ratio) : Json :=
  .decimal ⟨false, r.hundredths, -2⟩

end Ratio

/-- How far a contrast ratio reaches. -/
inductive Tier
  | aaa
  | aa
  | a
  | fail
  deriving Repr, DecidableEq

namespace Tier

def name : Tier → String
  | aaa => "AAA"
  | aa => "AA"
  | a => "A"
  | fail => "FAIL"

def aaaThreshold : Nat := 700
def aaThreshold : Nat := 450
def aThreshold : Nat := 300

def ofHundredths (n : Nat) : Tier :=
  if aaaThreshold ≤ n then aaa
  else if aaThreshold ≤ n then aa
  else if aThreshold ≤ n then a
  else fail

/-- The tier of a ratio that is not rounded. -/
def ofReal (x : Float) : Tier :=
  match Binary64.read x with
  | .nan => fail
  | .infinite negative => if negative then fail else aaa
  | .finite negative size =>
    if negative then fail else ofHundredths (Binary64.Magnitude.floor { size with mantissa := 100 * size.mantissa })

end Tier

/-- The contrast of a text colour and its background. -/
structure Contrast where
  ratio : Ratio
  tier : Tier
  passes : Bool
  deriving Repr, DecidableEq

/-- What a contrast ratio suffices for, at two levels and for normal and large text. -/
structure Compliance where
  ratio : Ratio
  aaNormal : Bool
  aaLarge : Bool
  aaaNormal : Bool
  aaaLarge : Bool
  deriving Repr, DecidableEq

namespace Contrast

/-- The unrounded ratio. Text that is not understood is black, and a background that is not understood is white. -/
def ratio? (foreground background : Value) : Except Fault Float := do
  let text ← Color.parse foreground
  let ground ← Color.parse background
  return Color.contrast (text.getD .black) (ground.getD .white)

def compute (foreground background : Value) : Except Fault Contrast :=
  (ratio? foreground background).map fun x =>
    let ratio := Ratio.round x
    { ratio, tier := .ofHundredths ratio.hundredths, passes := Tier.aaThreshold ≤ ratio.hundredths }

def toJson (c : Contrast) : Json :=
  .object [("level", .text c.tier.name), ("passes", .bool c.passes), ("ratio", c.ratio.toJson)]

end Contrast

namespace Compliance

def check (foreground background : Value) : Except Fault Compliance :=
  (Contrast.ratio? foreground background).map fun x =>
    let ratio := Ratio.round x
    { ratio
      aaNormal := 450 ≤ ratio.hundredths
      aaLarge := 300 ≤ ratio.hundredths
      aaaNormal := 700 ≤ ratio.hundredths
      aaaLarge := 450 ≤ ratio.hundredths }

end Compliance

namespace Journal

/-- The record of a colour that is not understood. -/
def unrecognized (value : Value) (default : Text) : Record where
  source := "accessiquest.colors"
  level := .debug
  message := "Unrecognized color " ++ value.shown ++ ", using " ++ String.ofList default

/-- What resolving a colour records. -/
def ofResolve (value : Value) (default : Text) : List Record :=
  match Color.parse value with
  | .ok none => [unrecognized value default]
  | _ => []

/-- What computing a contrast records. A fault in the first colour keeps the second from being looked at. -/
def ofContrast (foreground background : Value) : List Record :=
  match Color.parse foreground with
  | .error _ => []
  | .ok _ => ofResolve foreground Color.black.hex ++ ofResolve background Color.white.hex

end Journal

end Accessibility
