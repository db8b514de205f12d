import TemplateCheck.Service.Cursor
import TemplateCheck.Service.Session

/-!
# Completions

Inside a template every component is offered as a tag and, inside a component tag, its props as
attributes. A skeleton for a new component is offered everywhere.
-/

namespace TemplateCheck

/-- The component that a completion stands for. -/
structure CompletionTarget where
  name : Text
  filePath : Text
deriving DecidableEq, Repr

/-- Something to insert at the cursor. -/
structure Completion where
  name : Text
  kind : Text
  insertText : Text
  sortText : Text := "0"
  component : Option CompletionTarget := none
deriving DecidableEq, Repr

/-- The skeleton of a new component. -/
def componentSkeleton (framework name : Text) : Text :=
  "import { Component, html, type Template } from '" ++ framework ++ "';\n" ++
  "import { component } from '" ++ framework ++ "/decorators';\n" ++
  "\n" ++
  "@component()\n" ++
  "export class " ++ name ++ r" extends Component {" ++ "\n" ++
  r"    template(): Template {" ++ "\n" ++
  "        return html``;\n" ++
  r"    }" ++ "\n" ++
  r"}"

namespace Completion

/-- A component as a tag; one with slots gets a closing tag. -/
def ofComponent (component : Component) : Completion where
  name := component.name
  kind := "class"
  insertText :=
    if component.slots = [] then '<' :: component.name ++ " />"
    else '<' :: component.name ++ "></" ++ component.name ++ ">"
  component := some ⟨component.name, component.filePath⟩

/-- A prop as an attribute. -/
def ofProp (prop : PropDeclaration) : Completion where
  name := ':' :: prop.key
  kind := "property"
  insertText := ':' :: prop.key ++ "=${}"

/-- A new component named after the file. -/
def ofFile (config : Config) (file : SourceFile) : Completion where
  name := "component~"
  kind := "class"
  insertText :=
    componentSkeleton config.frameworkModule.toText (Path.stem (Path.fileName file.path))

end Completion

/-- The component whose tag the cursor stands in. -/
def Session.componentAt? (session : Session) (template : TaggedTemplate) (offset : Int) :
    Option Component :=
  (componentAtCursor? template.body (offset - template.bodyStart)).bind fun tag =>
    if tag.inside then session.registry.find? tag.name else none

/-- The completions at an offset of a file. -/
def Session.completions (session : Session) (path : Text) (offset : Int) : List Completion :=
  match session.program.file? path with
  | none => []
  | some file =>
    let inTemplate :=
      match file.templateAt? offset with
      | none => []
      | some template =>
        session.registry.components.map .ofComponent ++
          match session.componentAt? template offset with
          | some component => component.props.map .ofProp
          | none => []
    inTemplate ++ [.ofFile session.program.config file]

end TemplateCheck
