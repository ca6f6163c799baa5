import Accessibility.Text.Basic

/-! # Searching a text from left to right

Every search of the library is the same loop with another recogniser: at each place in turn the recogniser is
tried, and after a find the loop goes on behind it. -/

namespace Accessibility

/-- A recogniser sees the character before a place and the text from there on. It answers with a value and with the
front of the text that the find takes up, which is never empty. -/
abbrev Recognizer (α : Type) := Option Char → Text → Option (α × Text)

/-- A find, with the text that it takes up and the place where it starts. -/
structure Occurrence (α : Type) where
  value : α
  raw : Text
  start : Nat
  deriving Repr, DecidableEq

namespace Occurrence

variable {α : Type}

/-- The place behind the find. -/
def stop (o : Occurrence α) : Nat :=
  o.start + o.raw.length

end Occurrence

namespace Text

variable {α : Type}

/-- The finds in a text that starts at `place` after the character `before`, and whose first `covered` characters
belong to an earlier find. -/
def occurrencesFrom (r : Recognizer α) : (covered : Nat) → (before : Option Char) → (place : Nat) → Text →
    List (Occurrence α)
  | _, _, _, [] => []
  | covered + 1, _, place, c :: rest => occurrencesFrom r covered (some c) (place + 1) rest
  | 0, before, place, c :: rest =>
    match r before (c :: rest) with
    | none => occurrencesFrom r 0 (some c) (place + 1) rest
    | some (value, raw) =>
      { value, raw, start := place } :: occurrencesFrom r (raw.length - 1) (some c) (place + 1) rest

/-- All finds, none of which overlaps another. -/
def occurrences (r : Recognizer α) (t : Text) : List (Occurrence α) :=
  occurrencesFrom r 0 none 0 t

def first? (r : Recognizer α) (t : Text) : Option (Occurrence α) :=
  (occurrences r t).head?

def replaceFrom (r : Recognizer α) (write : α → Text) : (covered : Nat) → (before : Option Char) → Text → Text
  | _, _, [] => []
  | covered + 1, _, c :: rest => replaceFrom r write covered (some c) rest
  | 0, before, c :: rest =>
    match r before (c :: rest) with
    | none => c :: replaceFrom r write 0 (some c) rest
    | some (value, raw) => write value ++ replaceFrom r write (raw.length - 1) (some c) rest

/-- The text with every find written anew and everything else left as it is. -/
def replaceEach (r : Recognizer α) (write : α → Text) (t : Text) : Text :=
  replaceFrom r write 0 none t

end Text

end Accessibility
