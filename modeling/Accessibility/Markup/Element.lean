import Accessibility.Markup.Tag
import Accessibility.Text.Blank

/-! # Elements with plain text

An element is found when nothing but text stands between its opening and its closing tag. -/

namespace Accessibility

structure Element where
  name : Text
  openTag : Text
  text : Text
  raw : Text
  start : Nat
  deriving Repr, DecidableEq

namespace Element

/-- The closing tag at the front of a text. Any of the looked-for names closes, and blanks may follow it. -/
def closing? (name : TagName) : Text → Option Text
  | '<' :: '/' :: t =>
    match name.take? t with
    | none => none
    | some (written, rest) =>
      match rest.dropWhile Text.isBlank with
      | '>' :: _ => some ('<' :: '/' :: written ++ rest.takeWhile Text.isBlank ++ ['>'])
      | _ => none
  | _ => none

/-- What an element is made of, apart from its place. -/
structure Parts where
  name : Text
  openTag : Text
  text : Text

def recognize (name : TagName) : Recognizer Parts := fun _ t =>
  match Opening.read? name t with
  | none => none
  | some o =>
    let text := Text.upTo '<' o.rest
    (closing? name (o.rest.drop text.length)).map fun closing =>
      ({ name := o.name, openTag := o.raw, text }, o.raw ++ text ++ closing)

/-- The plain-text elements of a page, in order. -/
def findAll (name : TagName) (page : Text) : List Element :=
  (Text.occurrences (recognize name) page).map fun o =>
    { name := o.value.name, openTag := o.value.openTag, text := o.value.text, raw := o.raw, start := o.start }

end Element

/-- The level of a heading, read off the lower-case name of its tag. -/
def headingLevel? : Text → Option Nat
  | ['h', d] => if TagName.isLevel d then some (d.toNat - '0'.toNat) else none
  | _ => none

def Tag.level? (tag : Tag) : Option Nat :=
  headingLevel? tag.name

def Element.level? (element : Element) : Option Nat :=
  headingLevel? element.name

/-- The text from a place up to the next tag. Places before the start and behind the end count as these. -/
def leadingText (page : Text) (place : Int) : Text :=
  Text.upTo '<' (page.drop place.toNat)

end Accessibility
