import Accessibility.Text.Basic

/-! # Loose comparison

Names of tags, attributes and properties are compared without regard to case. Only names written in ASCII are
looked for, so it is enough to say which characters stand for an ASCII letter. -/

namespace Accessibility.Text

/-- The small ASCII letter that a character stands for in a name; every other character stands for itself. Beside the
capitals these are the dotted capital and the dotless small I, the long S, and the sign of the kelvin. -/
def loose (c : Char) : Char :=
  if 'A' ≤ c ∧ c ≤ 'Z' then Char.ofNat (c.toNat + 32)
  else if c = '\u0130' ∨ c = '\u0131' then 'i'
  else if c = '\u017f' then 's'
  else if c = '\u212a' then 'k'
  else c

def agrees (a b : Char) : Bool :=
  loose a == loose b

/-- Splits off the front of a text that agrees with `name` character by character. -/
def take? : (name : Text) → Text → Option (Text × Text)
  | [], t => some ([], t)
  | _ :: _, [] => none
  | n :: name, c :: t =>
    if agrees n c then (take? name t).map fun (front, rest) => (c :: front, rest) else none

end Accessibility.Text
