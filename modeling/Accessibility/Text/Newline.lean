import Accessibility.Text.Basic

/-! # Ends of lines -/

namespace Accessibility.Text

/-- Every end of a line, however it was written, becomes a line feed. -/
def unifyNewlines : Text → Text
  | [] => []
  | '\r' :: '\n' :: rest => '\n' :: unifyNewlines rest
  | c :: rest => (if c = '\r' then '\n' else c) :: unifyNewlines rest

/-- The lines of a text; a line feed at the very end opens no further line. -/
def lines (t : Text) : List Text :=
  let parts := t.splitOn '\n'
  if t.getLast? = some '\n' then parts.dropLast else parts

end Accessibility.Text
