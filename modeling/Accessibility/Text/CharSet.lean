/-! # Sets of characters -/

namespace Accessibility

/-- A set of characters: the ascending code points at which membership changes, starting outside. -/
structure CharSet where
  boundaries : List Nat

namespace CharSet

/-- Whether `n` is inside, given that everything below the first boundary is `inside`. -/
def side (n : Nat) : Bool → List Nat → Bool
  | inside, [] => inside
  | inside, b :: rest => if n < b then inside else side n (!inside) rest

def contains (s : CharSet) (c : Char) : Bool :=
  side c.toNat false s.boundaries

end CharSet

end Accessibility
