import TemplateCheck.Diagnostic
import TemplateCheck.Registry

/-!
# Attributes

Each component tag is held against the contract of its component: required props are given, only
declared props and emits are bound, and none is bound twice.
-/

namespace TemplateCheck

/-- The component tags of a file with the scans that they come from. -/
def componentTagsIn (registry : Registry) (path : Text) : List (TemplateScan × Tag) :=
  (registry.templatesIn path).flatMap fun scan => scan.componentTags.map (scan, ·)

/-- An error at an attribute. -/
def TemplateScan.attributeError (scan : TemplateScan) (attr : Attribute) (message : Text)
    (code : DiagnosticCode) : Diagnostic :=
  .error scan.filePath (bodyOffset scan.templateStart attr.start) attr.length message code

/-! ## Required props -/

/-- The required props that a tag does not give. -/
def missingProps (path : Text) (scan : TemplateScan) (tag : Tag) (component : Component) :
    List Diagnostic :=
  let given := tag.keys .prop
  (component.requiredProps.filter fun prop => prop.key ∉ given).map fun prop =>
    .error path (tagNameOffset scan.templateStart tag.start) tag.name.length
      ("Component <" ++ tag.name ++ "> is missing required prop ':" ++ prop.key ++ "'.")
      .missingRequiredProp

/-- The required props that are missing in a file. -/
def checkRequiredProps (registry : Registry) (path : Text) : List Diagnostic :=
  (componentTagsIn registry path).flatMap fun (scan, tag) =>
    match registry.find? tag.name with
    | some component => missingProps path scan tag component
    | none => []

/-! ## Unknown attributes -/

/-- The error for an attribute that its component does not declare. -/
def unknownAttribute? (scan : TemplateScan) (tag : Tag) (component : Component)
    (attr : Attribute) : Option Diagnostic :=
  if (component.find? attr.kind attr.key).isSome then none
  else
    some (scan.attributeError attr
      ("Component <" ++ tag.name ++ "> does not declare " ++ attr.kind.name ++ " '" ++
        attr.kind.label attr.key ++ "'.")
      (match attr.kind with
        | .prop => .unknownProp
        | .emit => .unknownEmit))

/-- The attributes in a file that are not declared, each key once per tag. -/
def checkUnknownAttributes (registry : Registry) (path : Text) : List Diagnostic :=
  (componentTagsIn registry path).flatMap fun (scan, tag) =>
    match registry.find? tag.name with
    | some component =>
      (Attribute.firsts tag.attributes).filterMap (unknownAttribute? scan tag component)
    | none => []

/-! ## Repeated attributes -/

/-- The attributes in a file that are bound once more, each key once per tag, props first. -/
def checkRepeatedAttributes (registry : Registry) (path : Text) : List Diagnostic :=
  (componentTagsIn registry path).flatMap fun (scan, tag) =>
    (Attribute.firsts (tag.repeated .prop ++ tag.repeated .emit)).map fun attr =>
      scan.attributeError attr
        ("Duplicated " ++ attr.kind.name ++ " declaration '" ++ attr.kind.label attr.key ++
          "' on <" ++ tag.name ++ ">.")
        .duplicatedBinding

end TemplateCheck
