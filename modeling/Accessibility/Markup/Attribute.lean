import Accessibility.Text.Search
import Accessibility.Text.Blank
import Accessibility.Text.Loose
import Accessibility.Text.Lower
import Accessibility.Text.Word

/-! # Attributes

Attributes are looked for in any text, inside tags or not. A name must not continue another name, and only quoted
values are read. -/

namespace Accessibility.Attribute

def isQuote (c : Char) : Bool :=
  c == '"' || c == '\x27'

/-- Blanks and an equals sign at the front of a text, and what follows. -/
def equals? (t : Text) : Option (Text × Text) :=
  match t.dropWhile Text.isBlank with
  | '=' :: rest => some (t.takeWhile Text.isBlank ++ ['='], rest)
  | _ => none

/-- A quoted value at the front of a text after blanks: the value, and all that it takes up. The quote that opens a
value closes it. -/
def quotedValue? (t : Text) : Option (Text × Text) :=
  match t.dropWhile Text.isBlank with
  | quote :: rest =>
    if isQuote quote then
      (Text.after? quote rest).map fun _ =>
        (Text.upTo quote rest, t.takeWhile Text.isBlank ++ quote :: Text.upTo quote rest ++ [quote])
    else none
  | [] => none

/-- The name of an attribute with its equals sign: the name, and all that it takes up. -/
def named (name : Text) : Recognizer Text := fun before t =>
  if before.any Text.isName then none
  else
    match Text.take? name t with
    | none => none
    | some (written, rest) => (equals? rest).map fun (equals, _) => (written, written ++ equals)

/-- An attribute with a quoted value. -/
def valued (name : Text) : Recognizer Text := fun before t =>
  if before.any Text.isName then none
  else
    match Text.take? name t with
    | none => none
    | some (written, rest) =>
      match equals? rest with
      | none => none
      | some (equals, after) =>
        (quotedValue? after).map fun (value, quoted) => (value, written ++ equals ++ quoted)

/-- Every quoted value of an attribute, in order. -/
def values (name text : Text) : List Text :=
  (Text.occurrences (valued name) text).map (·.value)

/-- The first quoted value of an attribute. -/
def value? (name text : Text) : Option Text :=
  (Text.first? (valued name) text).map (·.value)

/-- Whether the attribute is given a value, quoted or not. -/
def isGiven (name text : Text) : Bool :=
  (Text.first? (named name) text).isSome

def ariaFront : Text := "aria-".toList

/-- The name of an accessibility attribute, with its equals sign. -/
def aria : Recognizer Text := fun before t =>
  if before.any Text.isName then none
  else
    match Text.take? ariaFront t with
    | none => none
    | some (front, rest) =>
      let tail := rest.takeWhile Text.isName
      if tail.isEmpty then none
      else
        (equals? (rest.dropWhile Text.isName)).map fun (equals, _) =>
          (Text.lower (front ++ tail), front ++ tail ++ equals)

/-- The names of all accessibility attributes in lower case, in order. -/
def ariaNames (text : Text) : List Text :=
  (Text.occurrences aria text).map (·.value)

end Accessibility.Attribute
