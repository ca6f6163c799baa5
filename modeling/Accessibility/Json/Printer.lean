import Accessibility.Json.Basic
import Accessibility.Text.Quoted

/-! # Printing the data format

The printed form is ASCII only, with two blanks for each level of nesting. The members of an object are printed in
the order in which they are listed. -/

namespace Accessibility.Json

open Text

/-- The escape of one unit of sixteen bits. -/
def escapeUnit (n : Nat) : Text :=
  '\\' :: 'u' :: hexDigits 4 n

/-- How a character stands inside a quoted text. Beyond the sixteen-bit range it takes a pair of units. -/
def printChar (c : Char) : Text :=
  if c = '"' ∨ c = '\\' then ['\\', c]
  else if c = '\n' then ['\\', 'n']
  else if c = '\r' then ['\\', 'r']
  else if c = '\t' then ['\\', 't']
  else if c = '\x08' then ['\\', 'b']
  else if c = '\x0c' then ['\\', 'f']
  else if ' ' ≤ c ∧ c ≤ '~' then [c]
  else if c.toNat < 0x10000 then escapeUnit c.toNat
  else
    let n := c.toNat - 0x10000
    escapeUnit (0xD800 + n / 0x400) ++ escapeUnit (0xDC00 + n % 0x400)

def printText (s : String) : Text :=
  '"' :: s.toList.flatMap printChar ++ ['"']

def printInteger (n : Int) : Text :=
  (toString n).toList

/-- The last `places` digits of a number, with zeros in front if it has fewer. -/
def lastDigits : (places : Nat) → Nat → Text
  | 0, _ => []
  | places + 1, n => lastDigits places (n / 10) ++ [hexDigit (n % 10)]

def dropZeros (t : Text) : Text :=
  (t.reverse.dropWhile (· == '0')).reverse

/-- A number with as many places after the point as it needs, and at least one. -/
def printDecimal (d : Decimal) : Text :=
  let sign := if d.negative then ['-'] else []
  let places := (-d.exponent).toNat
  let whole := d.digits * tenTo d.exponent.toNat / tenTo places
  let fraction := dropZeros (lastDigits places d.digits)
  sign ++ (toString whole).toList ++ '.' :: (if fraction.isEmpty then ['0'] else fraction)

/-- The start of a line at a level of nesting. -/
def newLine (level : Nat) : Text :=
  '\n' :: List.replicate (2 * level) ' '

mutual

def print (level : Nat) : Json → Text
  | null => "null".toList
  | bool b => (if b then "true" else "false").toList
  | integer n => printInteger n
  | decimal d => printDecimal d
  | text s => printText s
  | array [] => ['[', ']']
  | array (item :: rest) =>
    '[' :: newLine (level + 1) ++ print (level + 1) item ++ printItems (level + 1) rest ++ newLine level ++ [']']
  | object [] => ['\x7b', '\x7d']
  | object ((name, value) :: rest) =>
    '\x7b' :: newLine (level + 1) ++ printText name ++ ':' :: ' ' :: print (level + 1) value ++
      printMembers (level + 1) rest ++ newLine level ++ ['\x7d']

/-- The items after the first. -/
def printItems (level : Nat) : List Json → Text
  | [] => []
  | item :: rest => ',' :: newLine level ++ print level item ++ printItems level rest

/-- The members after the first. -/
def printMembers (level : Nat) : List (String × Json) → Text
  | [] => []
  | (name, value) :: rest =>
    ',' :: newLine level ++ printText name ++ ':' :: ' ' :: print level value ++ printMembers level rest

end

def pretty (value : Json) : String :=
  String.ofList (print 0 value)

end Accessibility.Json
