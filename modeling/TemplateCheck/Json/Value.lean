import TemplateCheck.OrderedMap
import TemplateCheck.Text.CodePoint

/-!
# JSON values

Values with their object keys in order. Numbers are kept as they are written, and strings as code
points, because an escape can spell a surrogate on its own.
-/

namespace TemplateCheck

/-- A JSON value. -/
inductive Json where
  | null
  | bool (b : Bool)
  | number (text : Text)
  | string (text : WideText)
  | array (items : List Json)
  | object (fields : List (WideText × Json))
deriving Inhabited

namespace Json

/-- An integer. -/
def int (n : Int) : Json := number (Text.ofInt n)

/-- A value that may be missing; a missing one is null. -/
def option {α : Type} (encode : α → Json) : Option α → Json
  | none => null
  | some a => encode a

/-- A text as a string. -/
def text (t : Text) : Json := string (WideText.ofText t)

/-- An object whose keys are texts. -/
def record (fields : List (Text × Json)) : Json :=
  object (fields.map fun field => (WideText.ofText field.1, field.2))

/-- The code points of a string. -/
def string? : Json → Option WideText
  | string text => some text
  | _ => none

/-- The strings of an array of strings. -/
def strings? : Json → Option (List WideText)
  | array items => items.mapM string?
  | _ => none

end Json

end TemplateCheck
