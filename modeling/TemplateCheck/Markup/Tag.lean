import TemplateCheck.OrderedMap
import TemplateCheck.Text.Basic

/-!
# Tags and attributes

An opening tag of a template with its bound attributes, `:key=` for a prop and `@emits:key=` for an
emit, and its static attributes. Offsets count from the start of the template body.
-/

namespace TemplateCheck

/-- What an attribute binds. -/
inductive BindingKind where
  | prop
  | emit
deriving DecidableEq, Repr

namespace BindingKind

/-- The kind in words. -/
def name : BindingKind → Text
  | prop => "prop"
  | emit => "emit"

/-- The attribute as it is written in a template. -/
def label (kind : BindingKind) (key : Text) : Text :=
  match kind with
  | prop => ':' :: key
  | emit => "@emits:" ++ key

end BindingKind

/-- A bound attribute of a tag. -/
structure Attribute where
  kind : BindingKind
  key : Text
  /-- Offset of the sigil. -/
  start : Nat
  /-- Length of the sigil and the key. -/
  length : Nat
deriving DecidableEq, Repr

namespace Attribute

/-- Whether two attributes bind one key in one way. -/
def sameKey (a b : Attribute) : Bool := a.kind = b.kind && a.key = b.key

/-- The attributes whose key neither `seen` nor an earlier attribute binds. -/
def firstsFrom (seen : List Attribute) : List Attribute → List Attribute
  | [] => []
  | a :: rest =>
    if seen.any (sameKey a) then firstsFrom seen rest else a :: firstsFrom (a :: seen) rest

/-- The attributes whose key `seen` or an earlier attribute binds. -/
def repeatsFrom (seen : List Attribute) : List Attribute → List Attribute
  | [] => []
  | a :: rest =>
    if seen.any (sameKey a) then a :: repeatsFrom seen rest else repeatsFrom (a :: seen) rest

/-- The first attribute for each kind and key. -/
def firsts (attributes : List Attribute) : List Attribute := firstsFrom [] attributes

/-- The attributes that bind a key once more. -/
def repeats (attributes : List Attribute) : List Attribute := repeatsFrom [] attributes

end Attribute

/-- An opening tag. -/
structure Tag where
  name : Text
  /-- Offset of the `<`. -/
  start : Nat
  /-- The bound attributes in order. -/
  attributes : List Attribute
  /-- The attributes with a plain key and a plain value; the first of a key counts. -/
  statics : OrderedMap Text Text
  selfClosing : Bool
deriving DecidableEq, Repr

/-- Whether a name is that of a component: a capital letter, then letters and digits, all ASCII. -/
def isComponentName : Text → Bool
  | [] => false
  | c :: t => c.isUpper && t.all Char.isAlphanum

namespace Tag

/-- Whether the tag stands for a component. -/
def isComponent (tag : Tag) : Bool := isComponentName tag.name

/-- The distinct keys bound in one way. -/
def keys (tag : Tag) (kind : BindingKind) : List Text :=
  distinct ((tag.attributes.filter (·.kind = kind)).map (·.key))

/-- The attributes that bind a key of this kind once more. -/
def repeated (tag : Tag) (kind : BindingKind) : List Attribute :=
  (Attribute.repeats tag.attributes).filter (·.kind = kind)

end Tag

end TemplateCheck
