import TemplateCheck.Service.Hover

/-!
# Quick fixes

For a component that is used but not imported, an edit that adds the import after the last one.
-/

namespace TemplateCheck

/-- Replaces `length` characters at `start` by a text. -/
structure TextChange where
  start : Nat
  length : Nat
  newText : Text
deriving DecidableEq, Repr

/-- An edit that repairs a file. -/
structure CodeFix where
  name : Text
  description : Text
  filePath : Text
  changes : List TextChange
deriving DecidableEq, Repr

/-- The fix that imports a component into a file. -/
def CodeFix.importing (file : SourceFile) (component : Component) : CodeFix :=
  let insertion := file.importInsertion
  let lineBreak : Text :=
    if insertion = 0 ∨ file.text[insertion - 1]? = some '\n' then [] else ['\n']
  { name := "importComponent"
    description := "Import component " ++ component.name
    filePath := file.path
    changes := [{
      start := insertion
      length := 0
      newText := lineBreak ++
        importLine component.name (Path.specifier file.path component.filePath) }] }

/-- The component names that diagnostics covering a range report as not imported. -/
def missingImports (diagnostics : List Diagnostic) (start stop : Int) : List Text :=
  distinct <| diagnostics.filterMap fun diagnostic =>
    match diagnostic.start, diagnostic.stop? with
    | some first, some last =>
      if diagnostic.code = DiagnosticCode.notImported.number ∧ first ≤ start ∧ stop ≤ last then
        notImportedName? diagnostic.message
      else none
    | _, _ => none

/-- The fixes for a range of a file, if one of the codes is about missing imports. -/
def Session.codeFixes (session : Session) (path : Text) (start stop : Int) (codes : List Int) :
    List CodeFix :=
  if DiagnosticCode.notImported.number ∈ codes then
    match session.program.file? path with
    | none => []
    | some file =>
      ((missingImports (session.diagnostics path (some [])) start stop).filterMap
        session.registry.find?).map (CodeFix.importing file)
  else []

end TemplateCheck
