import Accessibility.Text.Quoted

/-! # Faults

The causes for which an operation gives no result, each with its message. -/

namespace Accessibility

inductive Fault
  /-- A decimal numeral is longer than any that is read. -/
  | tooManyDigits (count : Nat)
  /-- Two characters of a colour are no hexadecimal number. -/
  | notHexadecimal (written : Text)
  | quotientTooLarge
  | integerTooLarge
  | divisionByZero
  | floorOfInfinity
  | floorOfNaN
  | dateOutOfRange
  /-- A score is compared with something that is no number. -/
  | notComparable
  /-- The console cannot read a message. -/
  | unreadable (complaint : String)
  deriving Repr, DecidableEq

namespace Fault

/-- The most digits of a decimal numeral that is read. -/
def digitLimit : Nat := 4300

def message : Fault → String
  | tooManyDigits count =>
    s!"Exceeds the limit ({digitLimit} digits) for integer string conversion: value has {count} digits; " ++
      "use sys.set_int_max_str_digits() to increase the limit"
  | notHexadecimal written => "invalid literal for int() with base 16: " ++ String.ofList written.quoted
  | quotientTooLarge => "integer division result too large for a float"
  | integerTooLarge => "int too large to convert to float"
  | divisionByZero => "float division by zero"
  | floorOfInfinity => "cannot convert float infinity to integer"
  | floorOfNaN => "cannot convert float NaN to integer"
  | dateOutOfRange => "date value out of range"
  | notComparable => "'<' not supported between instances of 'int' and 'list'"
  | unreadable complaint => complaint

end Fault

end Accessibility
