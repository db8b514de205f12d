import TemplateCheck.Source.Class
import TemplateCheck.Source.Import
import TemplateCheck.Source.Lexer
import TemplateCheck.Source.Template
import TemplateCheck.Source.TypeDeclaration

/-!
# Source files

A source file read once: its mask, its imports, classes, marked templates, type declarations and
variables, with the questions that the rest of the library asks about it.
-/

namespace TemplateCheck

/-- A source file and what was read from it. -/
structure SourceFile where
  path : Text
  text : Text
  /-- The text with only its code left to see. -/
  mask : Text
  imports : List Import
  classes : List ClassDeclaration
  templates : List TaggedTemplate
  typeDeclarations : OrderedMap Text Text
  variableDeclarations : OrderedMap Text (List Variable)
deriving DecidableEq, Repr

namespace SourceFile

/-- Reads a source file whose templates are marked by `marker`. -/
def read (marker : WideText) (path text : Text) : SourceFile :=
  let code := Code.ofText text
  let mask := code.mask
  { path := path
    text := text
    mask := mask
    imports := Import.readAll path text mask
    classes := ClassDeclaration.readAll text mask
    templates := code.templates marker
    typeDeclarations := TypeDeclaration.readAll text mask
    variableDeclarations := Variable.readAll text mask }

/-- The position of an offset, which may lie outside the text. -/
def position (file : SourceFile) (offset : Int) : Position :=
  Text.positionIn (Text.lineStarts file.text) offset

/-- The import that binds a local name. -/
def importFor? (file : SourceFile) (name : Text) : Option Import :=
  file.imports.find? (·.name = name)

/-- Whether a class of that name is declared in the file. -/
def definesClass (file : SourceFile) (name : Text) : Bool := file.classes.any (·.name = name)

/-- The innermost class whose body contains an offset; of classes with one body, the first. -/
def classAt? (file : SourceFile) (offset : Int) : Option ClassDeclaration :=
  file.classes.foldl
    (fun found declaration =>
      if declaration.contains offset &&
          found.all (fun (best : ClassDeclaration) => best.bodyStart < declaration.bodyStart)
      then some declaration else found)
    none

/-- The last declaration of a name before an offset, or its first one when there is none. -/
def variableFor? (file : SourceFile) (name : Text) (offset : Int) : Option Variable :=
  let candidates := (OrderedMap.get? file.variableDeclarations name).getD []
  let earlier := candidates.filter fun candidate => (candidate.start : Int) < offset
  earlier.getLast?.or candidates.head?

/-- The identifiers in the code of the file outside import statements, without repetitions. -/
def usedIdentifiers (file : SourceFile) : List Text :=
  let ranges := distinct (file.imports.map fun binding => (binding.start, binding.stop))
  let names : Pattern Unit := .capture () .identifier
  distinct <| (names.readAll file.mask).filterMap fun found =>
    if ranges.any fun range => range.1 ≤ found.start && found.start < range.2 then none
    else found.text? ()

/-- The offset right after the last import statement, blanks at its end left out, or zero. -/
def importInsertion (file : SourceFile) : Nat :=
  file.imports.foldl
    (fun offset binding =>
      let statement := Text.slice file.text binding.start binding.stop
      max offset (binding.start + (Text.trimEnd statement).length))
    0

end SourceFile

end TemplateCheck
