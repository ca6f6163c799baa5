import Accessibility.Text.Search

/-! # Escaping console markup

The console takes a bracketed word for a tag unless an odd number of backslashes stands before it. Escaping doubles
the backslashes before every such word and adds one. -/

namespace Accessibility.Console

/-- The characters with which a tag starts after its bracket. -/
def isTagStart (c : Char) : Bool :=
  ('a' ≤ c && c ≤ 'z') || c == '#' || c == '/' || c == '@'

/-- The tag at the front of a text: up to the first closing bracket, without another opening one. -/
def tag? : Text → Option Text
  | '[' :: c :: rest =>
    if isTagStart c then
      let inner := rest.takeWhile fun c => c != '[' && c != ']'
      match rest.drop inner.length with
      | ']' :: _ => some ('[' :: c :: inner ++ [']'])
      | _ => none
    else none
  | _ => none

def isBackslash (c : Char) : Bool :=
  c == '\\'

/-- A tag and the backslashes before it. -/
def backslashedTag : Recognizer (Text × Text) := fun _ t =>
  let slashes := t.takeWhile isBackslash
  (tag? (t.dropWhile isBackslash)).map fun tag => ((slashes, tag), slashes ++ tag)

/-- Whether a text ends in a backslash that stands alone. -/
def endsInBackslash (t : Text) : Bool :=
  ['\\'].isSuffixOf t && !(['\\', '\\'].isSuffixOf t)

/-- A text in which no word is taken for a tag. A single backslash at the end is doubled, so that it does not touch
what is put behind the text. -/
def escape (t : Text) : Text :=
  let t := t.replaceEach backslashedTag fun (slashes, tag) => slashes ++ slashes ++ '\\' :: tag
  if endsInBackslash t then t ++ ['\\'] else t

end Accessibility.Console
