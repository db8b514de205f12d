import TemplateCheck.Service.Completion

/-!
# Hover texts

The contract of the component under the cursor, and the import line for it.
-/

namespace TemplateCheck

/-- A text to show over a range of a file. -/
structure Hover where
  text : Text
  start : Int
  length : Int
deriving DecidableEq, Repr

/-- The line that imports a component into a file. -/
def importLine (name specifier : Text) : Text :=
  r"import { " ++ name ++ r" } from '" ++ specifier ++ "';"

/-- The lines under a heading, none when there is nothing to list. -/
def hoverSection (heading : Text) (items : List Text) : List Text :=
  if items = [] then [] else heading :: items.map ("  • " ++ ·)

/-- What is shown for a component in a file. -/
def hoverText (path : Text) (component : Component) : Text :=
  Text.join ['\n']
    (["(alias) class " ++ component.name, []] ++
      hoverSection "Props:"
        (component.props.map fun prop =>
          prop.key ++ (if prop.optional then "?" else "") ++ ": " ++ prop.displayType) ++
      hoverSection "Slots:" component.slots ++
      [[], importLine component.name (Path.specifier path component.filePath)])

/-- The hover text for the component tag around an offset of a file. -/
def Session.hover? (session : Session) (path : Text) (offset : Int) : Option Hover := do
  let file ← session.program.file? path
  let template ← file.templateAt? offset
  let component ← session.componentAt? template offset
  let before := template.body.take (offset - template.bodyStart).toNat
  let nameStart : Nat := ((Text.findLast? ['<'] before).map (· + 1)).getD 0
  let nameStart := nameStart + Text.indent (template.body.drop nameStart)
  return {
    text := hoverText file.path component
    start := (template.bodyStart + nameStart : Nat)
    length := component.name.length }

end TemplateCheck
