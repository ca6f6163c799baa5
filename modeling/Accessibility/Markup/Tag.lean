import Accessibility.Text.Search
import Accessibility.Text.Loose
import Accessibility.Text.Lower
import Accessibility.Text.Word

/-! # Opening tags

The page is not parsed: an opening tag is a name right after a `<`, and everything up to the next `>`, whatever it
is. -/

namespace Accessibility

/-- The names that are looked for: one name, or the six headings. -/
inductive TagName
  | literal (name : Text)
  | heading
  deriving Repr, DecidableEq

namespace TagName

def img : TagName := .literal "img".toList
def input : TagName := .literal "input".toList
def label : TagName := .literal "label".toList
def button : TagName := .literal "button".toList
def track : TagName := .literal "track".toList

def isLevel (c : Char) : Bool :=
  '1' ≤ c && c ≤ '6'

/-- Splits off a name at the front of a text. -/
def take? : TagName → Text → Option (Text × Text)
  | .literal name, t => Text.take? name t
  | .heading, h :: d :: rest => if Text.agrees 'h' h && isLevel d then some ([h, d], rest) else none
  | .heading, _ => none

end TagName

/-- An opening tag at the front of a text: the name as written, what stands between it and the `>`, and what
follows. -/
structure Opening where
  written : Text
  inner : Text
  rest : Text

namespace Opening

/-- The tag itself, from `<` to `>`. -/
def raw (o : Opening) : Text :=
  '<' :: o.written ++ o.inner ++ ['>']

/-- The name in lower case. -/
def name (o : Opening) : Text :=
  Text.lower o.written

/-- The opening tag at the front of a text. The name must end where the looked-for name ends. -/
def read? (name : TagName) : Text → Option Opening
  | '<' :: t =>
    match name.take? t with
    | none => none
    | some (written, rest) =>
      if rest.head?.any Text.isName then none
      else (Text.after? '>' rest).map fun after => { written, inner := Text.upTo '>' rest, rest := after }
  | _ => none

end Opening

/-- An opening tag and its place in the page. -/
structure Tag where
  name : Text
  raw : Text
  start : Nat
  deriving Repr, DecidableEq

namespace Tag

def stop (tag : Tag) : Nat :=
  tag.start + tag.raw.length

def recognize (name : TagName) : Recognizer Text := fun _ t =>
  (Opening.read? name t).map fun o => (o.name, o.raw)

/-- The opening tags of a page, in order. -/
def findAll (name : TagName) (page : Text) : List Tag :=
  (Text.occurrences (recognize name) page).map fun o => { name := o.value, raw := o.raw, start := o.start }

end Tag

end Accessibility
