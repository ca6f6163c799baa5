import Accessibility.Number.Numeral
import Accessibility.Text.Lower
import Accessibility.Value

/-! # Colours

A colour is written as a name, with three or six hexadecimal digits, or with three numbers. -/

namespace Accessibility

structure Color where
  red : Fin 256
  green : Fin 256
  blue : Fin 256
  deriving Repr, DecidableEq

namespace Color

def black : Color := ⟨0, 0, 0⟩
def white : Color := ⟨255, 255, 255⟩

/-- The canonical form: a number sign and six digits. -/
def hex (c : Color) : Text :=
  '#' :: Text.hexDigits 2 c.red ++ Text.hexDigits 2 c.green ++ Text.hexDigits 2 c.blue

def named : List (Text × Color) := [
  ("black".toList, black),
  ("white".toList, white),
  ("red".toList, ⟨255, 0, 0⟩),
  ("green".toList, ⟨0, 128, 0⟩),
  ("blue".toList, ⟨0, 0, 255⟩),
  ("yellow".toList, ⟨255, 255, 0⟩),
  ("gray".toList, ⟨128, 128, 128⟩),
  ("grey".toList, ⟨128, 128, 128⟩),
  ("lightgray".toList, ⟨211, 211, 211⟩),
  ("lightgrey".toList, ⟨211, 211, 211⟩),
  ("darkgray".toList, ⟨169, 169, 169⟩),
  ("darkgrey".toList, ⟨169, 169, 169⟩)]

def named? (t : Text) : Option Color :=
  (named.find? (·.1 == t)).map (·.2)

/-- The value of a small hexadecimal digit. -/
def hexValue? (c : Char) : Option Nat :=
  if '0' ≤ c ∧ c ≤ '9' then some (c.toNat - '0'.toNat)
  else if 'a' ≤ c ∧ c ≤ 'f' then some (c.toNat - 'a'.toNat + 10)
  else none

/-- The channel of two hexadecimal digits. -/
def channel? (high low : Char) : Option (Fin 256) :=
  (hexValue? high).bind fun h => (hexValue? low).map fun l => Fin.ofNat 256 (16 * h + l)

/-- A number sign and three or six digits. Of three digits each stands for itself twice. -/
def ofHex? : Text → Option Color
  | ['#', r, g, b] =>
    (channel? r r).bind fun r => (channel? g g).bind fun g => (channel? b b).map fun b => ⟨r, g, b⟩
  | ['#', r₁, r₂, g₁, g₂, b₁, b₂] =>
    (channel? r₁ r₂).bind fun r => (channel? g₁ g₂).bind fun g => (channel? b₁ b₂).map fun b => ⟨r, g, b⟩
  | _ => none

/-- A run of at least one character of a kind at the front of a text, and what follows after blanks. -/
def run? (kind : Char → Bool) (t : Text) : Option (Text × Text) :=
  let run := t.takeWhile kind
  if run.isEmpty then none else some (run, Text.skipBlanks (t.dropWhile kind))

/-- What follows a sign at the front of a text and the blanks after it. -/
def sign? (sign : Char) : Text → Option Text
  | c :: rest => if c = sign then some (Text.skipBlanks rest) else none
  | [] => none

/-- The numbers of the three channels as written, in a form such as `rgb(1, 2, 3)`. A fourth number, the opacity, is
allowed and ignored. -/
def numbers? (t : Text) : Option (Text × Text × Text) := do
  let rest ← Text.dropWord? "rgb".toList t
  let rest := (Text.dropWord? ['a'] rest).getD rest
  let rest ← sign? '(' (Text.skipBlanks rest)
  let (r, rest) ← run? Text.isDigit rest
  let rest ← sign? ',' rest
  let (g, rest) ← run? Text.isDigit rest
  let rest ← sign? ',' rest
  let (b, rest) ← run? Text.isDigit rest
  let rest := ((sign? ',' rest).bind (run? fun c => Text.isDigit c || c == '.')).elim rest (·.2)
  if rest = [')'] then some (r, g, b) else none

/-- A written channel. All above the highest value counts as that. -/
def readChannel (run : Text) : Except Fault (Fin 256) :=
  (Numeral.readRun run).map fun n => Fin.ofNat 256 (min 255 n)

/-- Understands a colour, without regard to case and to blanks around it. -/
def parse : Value → Except Fault (Option Color)
  | .other _ => .ok none
  | .text t =>
    let t := Text.lower (Text.strip t)
    match named? t with
    | some c => .ok (some c)
    | none =>
      match ofHex? t with
      | some c => .ok (some c)
      | none =>
        match numbers? t with
        | none => .ok none
        | some (r, g, b) => do
          let red ← readChannel r
          let green ← readChannel g
          let blue ← readChannel b
          return some ⟨red, green, blue⟩

/-- The canonical form of a colour, or a default in place of what is not understood. -/
def resolve (value : Value) (default : Text) : Except Fault Text :=
  (parse value).map fun c => c.elim default hex

/-- The three channels of a canonical form. Anything else that looks like three numbers of two hexadecimal digits is
read too, so a channel may even be negative. -/
def channels (t : Text) : Except Fault (Int × Int × Int) := do
  let digits := t.dropWhile (· == '#')
  let read (front : Nat) : Except Fault Int :=
    let two := (digits.drop front).take 2
    match Numeral.read? 16 two with
    | some n => .ok n
    | none => .error (.notHexadecimal two)
  return (← read 0, ← read 2, ← read 4)

end Color

end Accessibility
