import TemplateCheck.Markup.Tokenizer
import TemplateCheck.Source.File
import TemplateCheck.TypeText.Inference

/-!
# Scanning the templates of a file

The component tags that the marked templates of a file use, and the expressions that are bound to
attributes. Offsets of usages count from the start of the file, offsets of bindings from the
opening backtick of their template.
-/

namespace TemplateCheck

/-! ## Offsets -/

/-- The offset in the file of a place counted from a node at `start`. -/
def absoluteOffset (start offset : Int) : Int := start + offset

/-- The offset in the file of a place in a template body, given that of the opening backtick. -/
def bodyOffset (templateStart offset : Int) : Int := absoluteOffset templateStart (1 + offset)

/-- The offset in the file of the name of a tag, given the place of its `<` in the body. -/
def tagNameOffset (templateStart tagStart : Int) : Int := bodyOffset templateStart (tagStart + 1)

/-! ## Bindings and usages -/

/-- A placeholder and the attribute that it is bound to. -/
structure Binding where
  /-- From the opening backtick to the dollar sign. -/
  relativeStart : Int
  /-- From the opening backtick to the end of the hole. -/
  relativeStop : Int
  expression : Option Expression
  /-- The component on whose tag the attribute stands. -/
  component : Option Text
  kind : Option BindingKind
  key : Option Text
  quoted : Bool
  /-- From the opening backtick to the key. -/
  keyStart : Option Int
deriving DecidableEq, Repr

namespace Binding

/-- Whether the binding says what is bound on which component. -/
def isActionable (binding : Binding) : Bool :=
  (binding.component.any (· ≠ [])) && (binding.key.any (· ≠ []))

/-- The offset in the file of the key. Without a recorded place of the key, it is computed for a
placeholder that follows the equals sign or the opening quote. -/
def keyOffset (templateStart : Int) (binding : Binding) : Int :=
  match binding.keyStart with
  | some start => absoluteOffset templateStart start
  | none =>
    let keyLength : Nat := (binding.key.getD []).length
    absoluteOffset templateStart
      (binding.relativeStart - keyLength - 2 + (if binding.quoted then 0 else 1))

end Binding

/-- An occurrence of a component tag in a template. -/
structure UsedComponent where
  name : Text
  start : Int
  stop : Int
  filePath : Text
  /-- The module that the name is imported from. -/
  importSource : Option Text
deriving DecidableEq, Repr

/-- What was found in one template. -/
structure TemplateScan where
  filePath : Text
  tagStart : Nat
  templateStart : Nat
  bodyStart : Nat
  tags : List Tag
  bindings : List Binding
  isNested : Bool
deriving DecidableEq, Repr

/-- The tags that stand for components. -/
def TemplateScan.componentTags (scan : TemplateScan) : List Tag := scan.tags.filter (·.isComponent)

/-- What was found in one file. -/
structure FileScan where
  filePath : Text
  /-- The component tags of all templates by increasing offset. -/
  used : List UsedComponent
  templates : List TemplateScan
deriving DecidableEq, Repr

/-! ## Scanning -/

/-- The tags and placeholders of a template. -/
def TaggedTemplate.tokens (template : TaggedTemplate) : Tokenizer.Tokens :=
  Tokenizer.tokenize template.body template.placeholders

/-- The binding of a placeholder in a template of a file. -/
def Binding.ofBound? (file : SourceFile) (template : TaggedTemplate) (tags : List Tag)
    (bound : Tokenizer.Bound) : Option Binding := do
  let span ← template.spans[bound.index]?
  let tag ← tags[bound.tag]?
  return {
    relativeStart := (span.start : Int) - template.start
    relativeStop := (span.stop : Int) - template.start
    expression := some {
      text := span.expression
      start := span.expressionStart
      stop := (span.expressionStart + span.expression.length : Nat)
      filePath := file.path
      className := (file.classAt? template.start).map (·.name) }
    component := if tag.isComponent then some tag.name else none
    kind := some bound.attr.kind
    key := some bound.attr.key
    quoted := bound.quoted
    keyStart := some (1 + (bound.attr.start : Int) + bound.attr.length - bound.attr.key.length) }

/-- Scans one template of a file. -/
def TemplateScan.ofTemplate (file : SourceFile) (template : TaggedTemplate) : TemplateScan :=
  let tokens := template.tokens
  { filePath := file.path
    tagStart := template.tagStart
    templateStart := template.start
    bodyStart := template.bodyStart
    tags := tokens.tags
    bindings := tokens.bound.filterMap (Binding.ofBound? file template tokens.tags)
    isNested := template.isNested }

/-- The component tags of one template as usages in the file. -/
def TemplateScan.usedIn (file : SourceFile) (scan : TemplateScan) : List UsedComponent :=
  scan.componentTags.map fun tag =>
    let start := tagNameOffset scan.templateStart tag.start
    { name := tag.name
      start := start
      stop := start + tag.name.length
      filePath := file.path
      importSource := (file.importFor? tag.name).map (·.source) }

/-- Scans every marked template of a file. -/
def FileScan.ofFile (file : SourceFile) : FileScan :=
  let scans := file.templates.map (TemplateScan.ofTemplate file)
  { filePath := file.path
    used := (scans.flatMap (·.usedIn file)).mergeSort fun a b => a.start ≤ b.start
    templates := scans }

/-! ## Slots -/

/-- The name of the tags that declare slots. -/
def slotTag : Text := "slot"

/-- The slot that a tag declares: its static `name`, or `default`. -/
def slotName (tag : Tag) : Text :=
  match OrderedMap.get? tag.statics "name" with
  | none | some [] => "default"
  | some name => name

/-- The slots that the templates in a class body declare, in order of first occurrence. -/
def slotsOf (file : SourceFile) (declaration : ClassDeclaration) : List Text :=
  let templates := file.templates.filter fun template => declaration.contains template.start
  let tags := templates.flatMap fun template => template.tokens.tags
  distinct ((tags.filter (·.name = slotTag)).map slotName)

end TemplateCheck
