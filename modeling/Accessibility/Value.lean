import Accessibility.Json.Shown

/-! # Arguments of any kind

A page, a colour or the name of an exercise should be a text. Where it is anything else, all that is ever asked of
it is how it is shown in a message. -/

namespace Accessibility

/-- A text, or something else that is known by how it is shown. -/
inductive Value
  | text (t : Text)
  | other (shown : String)
  deriving Repr, DecidableEq

namespace Value

def ofJson : Json → Value
  | .text s => text s.toList
  | j => other (Shown.ofJson j)

/-- The page that an argument stands for; what is no text is an empty page. -/
def page : Value → Text
  | text t => t
  | other _ => []

def shown : Value → String
  | text t => String.ofList t.quoted
  | other shown => shown

end Value

end Accessibility
