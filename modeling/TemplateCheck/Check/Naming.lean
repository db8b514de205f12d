import TemplateCheck.Diagnostic
import TemplateCheck.Registry

/-!
# Names of components

A component has a name of several words, and no other component has that name.
-/

namespace TemplateCheck

/-- An error at the name of a component. -/
def Component.nameError (component : Component) (message : Text) (code : DiagnosticCode) :
    Diagnostic :=
  .error component.filePath component.start component.name.length message code

/-- The components of a file whose name is a single word. -/
def checkMultiwordNames (registry : Registry) (path : Text) : List Diagnostic :=
  ((registry.componentsIn path).filter fun component => !component.isMultiword).map
    fun component => component.nameError
      ("Component <" ++ component.name ++ "> must have a multiword name (e.g., \"UserCard\").")
      .nonMultiwordName

/-- The components of a file whose name is declared elsewhere too. -/
def checkDuplicatedNames (registry : Registry) (path : Text) : List Diagnostic :=
  ((registry.componentsIn path).filter (·.isDuplicated)).map fun component =>
    component.nameError ("Duplicated component name detected: \"<" ++ component.name ++ ">\"")
      .duplicatedName

end TemplateCheck
