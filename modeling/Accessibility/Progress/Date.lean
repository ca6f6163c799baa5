import Accessibility.Fault
import Accessibility.Number.Numeral

/-! # Calendar dates -/

namespace Accessibility

/-- A day of the years 1 to 9999, counted from the first of them. -/
structure Date where
  ordinal : Nat
  first_le : 1 ≤ ordinal
  le_last : ordinal ≤ 3652059
  deriving Repr, DecidableEq

namespace Date

def isLeap (year : Nat) : Bool :=
  year % 4 = 0 && (year % 100 ≠ 0 || year % 400 = 0)

/-- The days of the years before a year. -/
def daysBeforeYear (year : Nat) : Nat :=
  let y := year - 1
  y * 365 + y / 4 - y / 100 + y / 400

def monthLengths (year : Nat) : List Nat :=
  [31, if isLeap year then 29 else 28, 31, 30, 31, 30, 31, 31, 30, 31, 30, 31]

/-- The days of the months before a month. -/
def daysBeforeMonth (year month : Nat) : Nat :=
  ((monthLengths year).take (month - 1)).foldl (· + ·) 0

def daysInMonth (year month : Nat) : Nat :=
  (monthLengths year).getD (month - 1) 0

/-- The day with an ordinal, if there is one. -/
def ofOrdinal? (n : Nat) : Option Date :=
  if h : 1 ≤ n ∧ n ≤ 3652059 then some ⟨n, h.1, h.2⟩ else none

def ofCivil? (year month day : Nat) : Option Date :=
  if 1 ≤ year ∧ year ≤ 9999 ∧ 1 ≤ month ∧ month ≤ 12 ∧ 1 ≤ day ∧ day ≤ daysInMonth year month then
    ofOrdinal? (daysBeforeYear year + daysBeforeMonth year month + day)
  else none

/-- Reads a date such as `2024-02-29`. -/
def ofText? : Text → Option Date
  | [y₁, y₂, y₃, y₄, '-', m₁, m₂, '-', d₁, d₂] => do
    let year ← Numeral.digits? 10 [y₁, y₂, y₃, y₄]
    let month ← Numeral.digits? 10 [m₁, m₂]
    let day ← Numeral.digits? 10 [d₁, d₂]
    ofCivil? (Numeral.ofDigits 10 year) (Numeral.ofDigits 10 month) (Numeral.ofDigits 10 day)
  | _ => none

/-- The day before; the first day has none. -/
def previous (d : Date) : Except Fault Date :=
  if h : 1 < d.ordinal then
    .ok ⟨d.ordinal - 1, Nat.le_sub_one_of_lt h, Nat.le_trans (Nat.sub_le ..) d.le_last⟩
  else .error .dateOutOfRange

end Date

end Accessibility
