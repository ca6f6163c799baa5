/-! # Powers of two and of ten -/

namespace Accessibility

/-- Two to the power of `k`. -/
abbrev twoTo (k : Nat) : Nat :=
  Nat.pow 2 k

/-- Ten to the power of `k`. -/
abbrev tenTo (k : Nat) : Nat :=
  Nat.pow 10 k

end Accessibility
