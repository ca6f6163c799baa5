/-! # Records of the journal -/

namespace Accessibility.Journal

inductive Level
  | debug
  | info
  | warning
  deriving Repr, DecidableEq

namespace Level

def weight : Level → Int
  | debug => 10
  | info => 20
  | warning => 30

def name : Level → String
  | debug => "DEBUG"
  | info => "INFO"
  | warning => "WARNING"

end Level

/-- A message, with the part of the program that tells it. -/
structure Record where
  source : String
  level : Level
  message : String
  deriving Repr, DecidableEq

/-- The records that are not below a threshold. -/
def atLeast (threshold : Int) (records : List Record) : List Record :=
  records.filter fun r => threshold ≤ r.level.weight

end Accessibility.Journal
