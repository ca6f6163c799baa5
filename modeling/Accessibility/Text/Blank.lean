import Accessibility.Text.Basic
import Accessibility.Text.CharSet

/-! # Blanks -/

namespace Accessibility.Text

/-- The control characters and spaces that separate words. The zero-width space and the byte order mark are no
blanks. -/
def blanks : CharSet where
  boundaries := [
    0x9, 0xE, 0x1C, 0x21, 0x85, 0x86, 0xA0, 0xA1, 0x1680, 0x1681, 0x2000, 0x200B, 0x2028, 0x202A, 0x202F, 0x2030,
    0x205F, 0x2060, 0x3000, 0x3001]

def isBlank (c : Char) : Bool :=
  blanks.contains c

def skipBlanks (t : Text) : Text :=
  t.dropWhile isBlank

/-- The text without the blanks at its two ends. -/
def strip (t : Text) : Text :=
  t.trim isBlank

end Accessibility.Text
