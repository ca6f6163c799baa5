import Accessibility.Fault
import Accessibility.Text.Blank
import Accessibility.Text.Digit

/-! # Numerals -/

namespace Accessibility.Numeral

/-- The number that digits denote in a base, the first digit weighing most. -/
def ofDigits (base : Nat) (digits : List Nat) : Nat :=
  digits.foldl (fun n d => base * n + d) 0

/-- The number that a run of decimal digits denotes. Leading zeros count toward the limit. -/
def readRun (run : Text) : Except Fault Nat :=
  if Fault.digitLimit < run.length then .error (.tooManyDigits run.length)
  else .ok (ofDigits 10 (run.filterMap Text.digitValue?))

/-- The value of a digit in a base of up to sixteen. -/
def digit? (base : Nat) (c : Char) : Option Nat :=
  let value :=
    match Text.digitValue? c with
    | some d => some d
    | none =>
      if 'a' ≤ c ∧ c ≤ 'f' then some (c.toNat - 'a'.toNat + 10)
      else if 'A' ≤ c ∧ c ≤ 'F' then some (c.toNat - 'A'.toNat + 10)
      else none
  value.filter (· < base)

/-- Digits with at most one low line between any two. -/
def digits? (base : Nat) : Text → Option (List Nat)
  | [] => none
  | [c] => (digit? base c).map ([·])
  | c :: '_' :: rest => (digit? base c).bind fun d => (digits? base rest).map (d :: ·)
  | c :: rest => (digit? base c).bind fun d => (digits? base rest).map (d :: ·)

/-- The blanks that may surround a number. The four separators of files, groups, records and units may not. -/
def isPadding (c : Char) : Bool :=
  Text.isBlank c && !('\x1c' ≤ c && c ≤ '\x1f')

/-- Splits a sign off a text; the answer tells whether it is a minus. -/
def takeSign : Text → Bool × Text
  | '+' :: rest => (false, rest)
  | '-' :: rest => (true, rest)
  | t => (false, t)

/-- Reads an integer with an optional sign, and padding around it. -/
def read? (base : Nat) (t : Text) : Option Int :=
  let (negative, rest) := takeSign (t.trim isPadding)
  match digits? base rest with
  | none => none
  | some digits =>
    if base = 10 ∧ Fault.digitLimit < digits.length then none
    else
      let n : Int := ofDigits base digits
      some (if negative then -n else n)

end Accessibility.Numeral
