import Accessibility.Number.Decimal

/-! # Values of the data format -/

namespace Accessibility

/-- A number is an integer, or a decimal where it is written with a fraction or an exponent. -/
inductive Json
  | null
  | bool (b : Bool)
  | integer (n : Int)
  | decimal (d : Decimal)
  | text (s : String)
  | array (items : List Json)
  | object (members : List (String × Json))
  deriving Repr

namespace Json

/-- The value of the first member of that name; `null` if there is none. -/
def get (name : String) : Json → Json
  | object members => ((members.find? (·.1 == name)).map (·.2)).getD null
  | _ => null

def ofOption {α : Type} (write : α → Json) : Option α → Json
  | none => null
  | some a => write a

def ofNat (n : Nat) : Json :=
  integer n

end Json

end Accessibility
