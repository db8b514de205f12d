import TemplateCheck.OrderedMap
import TemplateCheck.Pattern

/-!
# Variables

A variable or a field with its declared type or its initial value. Declarations are found in the
mask, and the type and the value are then read from the source text at the same place, because the
mask hides the contents of strings.
-/

namespace TemplateCheck

/-- A variable or a class field. -/
structure Variable where
  name : Text
  /-- Offset of the name. -/
  start : Nat
  type : Option Text
  initializer : Option Text
deriving DecidableEq, Repr

namespace Variable

/-- A type or a value as it is recorded: trimmed, without semicolons at its end, and not empty. -/
def clean (t : Option Text) : Option Text :=
  match t.map fun t => Text.trim (Text.dropRightWhile (· = ';') (Text.trim t)) with
  | none | some [] => none
  | some t => some t

/-- The parts of a declaration. -/
inductive Part where
  | name
  | type
  | initializer
deriving DecidableEq

open Pattern in
/-- A declaration with `const`, `let` or `var`, up to a semicolon or the end of its line. -/
def declaration : Pattern Part :=
  all [wordEdge, any [lit "const", lit "let", lit "var"], blanks1, capture .name identifier, blanks,
    opt (all [lit [':'], blanks, capture .type (spanLazy1 (noneOf ['=', ';', '\n'])), blanks]),
    opt (all [lit ['='], blanks, capture .initializer (span1 (noneOf [';', '\n']))]),
    look fun _ rest => rest = [] || rest.head? = some ';' || rest.head? = some '\n']

/-- The variable of a declaration found in the mask of a source text. -/
def ofDeclaration (text : Text) (found : Pattern.Match Part) : Variable :=
  let name := found.text .name
  let read :=
    match declaration.readFrom text found.start with
    | some inText => if inText.text? .name = some name then inText else found
    | none => found
  { name := name, start := found.startOf .name, type := clean (read.text? .type),
    initializer := clean (read.text? .initializer) }

/-- The variables of a source text by name, each name with its declarations in order. -/
def readAll (text mask : Text) : OrderedMap Text (List Variable) :=
  ((declaration.readAll mask).map (ofDeclaration text)).foldl
    (fun bindings declared => OrderedMap.extend bindings declared.name declared) []

end Variable

end TemplateCheck
