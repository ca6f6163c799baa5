import Accessibility.Text.Search
import Accessibility.Text.Blank
import Accessibility.Text.Digit
import Accessibility.Text.Loose
import Accessibility.Text.Word

/-! # Style declarations

A declaration is a property, a colon and a value. Like attributes, declarations are looked for in any text. -/

namespace Accessibility.Style

/-- The properties whose values are looked for. -/
inductive Property
  | color
  | background
  deriving Repr, DecidableEq

/-- Splits off a property at the front of a text. The background may be named by its colour alone. -/
def Property.take? : Property → Text → Option (Text × Text)
  | .color, t => Text.take? "color".toList t
  | .background, t =>
    match Text.take? "background".toList t with
    | none => none
    | some (front, rest) =>
      match Text.take? "-color".toList rest with
      | none => some (front, rest)
      | some (more, rest) => some (front ++ more, rest)

/-- Blanks and a colon at the front of a text, and what follows. -/
def colon? (t : Text) : Option (Text × Text) :=
  match t.dropWhile Text.isBlank with
  | ':' :: rest => some (t.takeWhile Text.isBlank ++ [':'], rest)
  | _ => none

/-- The characters that a value is made of: it ends at a semicolon, a bracket, a quote or the end of the line. -/
def isValueChar (c : Char) : Bool :=
  !(c ∈ [';', '\x7b', '\x7d', '<', '>', '\n', '"', '\x27'])

/-- A value at the front of a text after blanks: the value, and all that it takes up. Where no value follows the
blanks, they are a value themselves unless every one of them ends a line. -/
def value? (t : Text) : Option (Text × Text) :=
  let blanks := t.takeWhile Text.isBlank
  let value := (t.dropWhile Text.isBlank).takeWhile isValueChar
  if !value.isEmpty then some (value, blanks ++ value)
  else if blanks.any isValueChar then some (blanks, blanks)
  else none

def declared (p : Property) : Recognizer Text := fun before t =>
  if before.any Text.isName then none
  else
    match p.take? t with
    | none => none
    | some (front, rest) =>
      match colon? rest with
      | none => none
      | some (colon, rest) => (value? rest).map fun (value, taken) => (value, front ++ colon ++ taken)

/-- The value of the first declaration of a property, without a mark of importance. -/
def declaration? (p : Property) (text : Text) : Option Text :=
  (Text.first? (declared p) text).map fun o => Text.strip (Text.upTo '!' o.value)

/-- A declaration of the one width that is known not to scale. -/
def fixedWidth : Recognizer Unit := fun before t =>
  if before.any Text.isName then none
  else
    match Text.take? "width".toList t with
    | none => none
    | some (front, rest) =>
      match colon? rest with
      | none => none
      | some (colon, rest) =>
        (Text.take? "300px".toList (rest.dropWhile Text.isBlank)).map fun (length, _) =>
          ((), front ++ colon ++ rest.takeWhile Text.isBlank ++ length)

/-- A character that stands for one of the letters from A to Z. -/
def isLetter (c : Char) : Bool :=
  let small := Text.loose c
  'a' ≤ small && small ≤ 'z'

/-- The unit of a relative length at the front of a text: a percent sign, or one of the two font-relative units
where no letter continues it. -/
def relativeUnit? (t : Text) : Option Text :=
  match t with
  | '%' :: _ => some ['%']
  | _ =>
    let (root, rest) := (Text.take? ['r'] t).getD ([], t)
    match Text.take? "em".toList rest with
    | none => none
    | some (em, after) => if after.head?.any isLetter then none else some (root ++ em)

/-- The last digit of a relative length, with its unit. -/
def relativeLength : Recognizer Unit := fun _ t =>
  match t with
  | d :: rest => if Text.isDigit d then (relativeUnit? rest).map fun u => ((), d :: u) else none
  | [] => none

end Accessibility.Style
