import Accessibility.Text.Basic
import Accessibility.Text.Printable

/-! # Quoted texts -/

namespace Accessibility.Text

def hexDigit (n : Nat) : Char :=
  if n < 10 then Char.ofNat (48 + n) else Char.ofNat (87 + n)

/-- The lowest `width` hexadecimal digits of a number. -/
def hexDigits : (width : Nat) → Nat → Text
  | 0, _ => []
  | width + 1, n => hexDigits width (n / 16) ++ [hexDigit (n % 16)]

/-- A quoted text stands in single quotes, unless it has a single quote and no double one. -/
def quoteOf (t : Text) : Char :=
  if '\x27' ∈ t ∧ '"' ∉ t then '"' else '\x27'

/-- How a character is written between two `quote`s. -/
def quoteChar (quote c : Char) : Text :=
  if c = quote ∨ c = '\\' then ['\\', c]
  else if c = '\t' then ['\\', 't']
  else if c = '\n' then ['\\', 'n']
  else if c = '\r' then ['\\', 'r']
  else if isPrintable c then [c]
  else if c.toNat < 0x100 then '\\' :: 'x' :: hexDigits 2 c.toNat
  else if c.toNat < 0x10000 then '\\' :: 'u' :: hexDigits 4 c.toNat
  else '\\' :: 'U' :: hexDigits 8 c.toNat

/-- The text in quotes, on one line and with every character that is not printable spelled out. -/
def quoted (t : Text) : Text :=
  quoteOf t :: t.flatMap (quoteChar (quoteOf t)) ++ [quoteOf t]

end Accessibility.Text
