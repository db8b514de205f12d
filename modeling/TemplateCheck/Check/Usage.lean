import TemplateCheck.Diagnostic
import TemplateCheck.Registry

/-!
# Usages and imports

Every component used in a template must exist and be imported or declared in the file. The host
reports imports that code does not use; such a report is dropped when a template uses the name.
-/

namespace TemplateCheck

/-! ## Usages -/

/-- What is wrong with one usage in a file: the component does not exist, or it is neither imported
nor declared there. -/
def usageError? (registry : Registry) (file : SourceFile) (path : Text) (used : UsedComponent) :
    Option Diagnostic :=
  if (registry.find? used.name).isNone then
    some (.error path used.start used.name.length
      ("Component <" ++ used.name ++ "> does not exist.") .unknownComponent)
  else if (file.importFor? used.name).isNone ∧ file.definesClass used.name = false then
    some (.error path used.start used.name.length
      ("Component <" ++ used.name ++ "> is used in template but not imported.") .notImported)
  else none

/-- The usages of a file that are not imported. -/
def checkUsages (registry : Registry) (program : Program) (path : Text) : List Diagnostic :=
  match program.file? path with
  | none => []
  | some file => (registry.usedIn path).filterMap (usageError? registry file path)

/-- The component that a message reports as not imported. -/
def notImportedName? (message : Text) : Option Text := do
  let rest ← Text.dropStart? "Component <" message
  let name := Text.upTo '>' rest
  let _ ← Text.dropStart? "> is used in template but not imported" (rest.drop name.length)
  return name

/-! ## Unused imports -/

/-- The offset of the local name of a binding in its statement: its last occurrence before the
module specifier as a whole name. -/
def bindingOffset (file : SourceFile) (binding : Import) : Nat :=
  let statement := Text.slice file.text binding.start binding.stop
  let names :=
    match Text.findLast? binding.source statement with
    | some (n + 1) => statement.take n
    | _ => statement
  let name : Pattern Unit :=
    .all [.look fun previous _ => !previous.any isNameChar, .lit binding.name,
      .look fun _ rest => !rest.head?.any isNameChar]
  match (name.readAll names).getLast? with
  | some found => binding.start + found.start
  | none => binding.start

/-- The bindings of a file by statement, in order. -/
def importStatements (file : SourceFile) : OrderedMap (Nat × Nat) (List Import) :=
  file.imports.foldl
    (fun statements binding =>
      OrderedMap.extend statements (binding.start, binding.stop) binding)
    []

/-- What the host reports for one statement: the whole of it when all of several bindings are
unused, and each unused binding otherwise. -/
def unusedInStatement (file : SourceFile) (path : Text) (used : List Text) (range : Nat × Nat)
    (bindings : List Import) : List Diagnostic :=
  let unused := bindings.filter fun binding => binding.name ∉ used
  if unused.length = bindings.length ∧ 1 < bindings.length then
    [.error path range.1 (range.2 - range.1 : Int)
      "All imports in import declaration are unused." .unusedImportDeclaration]
  else
    unused.map fun binding =>
      .error path (bindingOffset file binding) binding.name.length
        ('\'' :: binding.name ++ "' is declared but its value is never read.") .unusedDeclaration

/-- The reports of a host about the unused imports of a file. -/
def findUnusedImports (program : Program) (path : Text) : List Diagnostic :=
  match program.file? path with
  | none => []
  | some file =>
    let used := file.usedIdentifiers
    (importStatements file).flatMap fun (range, bindings) =>
      unusedInStatement file path used range bindings

/-! ## Suppression -/

open Pattern in
/-- A name in single quotes. -/
def singleQuoted : Pattern Unit :=
  all [lit ['\''], capture () (span1 (noneOf ['\''])), lit ['\'']]

/-- Whether a report about unused imports concerns a name that a template uses: the quoted name of
the message or, without one, a name bound by the statement that the report points into. -/
def isTemplateUsage (usedNames : List Text) (file : Option SourceFile) (diagnostic : Diagnostic) :
    Bool :=
  match (singleQuoted.readAll diagnostic.message).head? with
  | some found => found.text () ∈ usedNames
  | none =>
    match file, diagnostic.start with
    | some file, some start =>
      file.imports.any fun binding =>
        (binding.start : Int) ≤ start && start < (binding.stop : Int) && binding.name ∈ usedNames
    | _, _ => false

/-- Whether a report is dropped for a file in whose templates the given names are used. -/
def isSuppressed (usedNames : List Text) (program : Program) (path : Text)
    (diagnostic : Diagnostic) : Bool :=
  diagnostic.filePath = some path &&
    (diagnostic.code = DiagnosticCode.unusedDeclaration.number ||
      diagnostic.code = DiagnosticCode.unusedImportDeclaration.number) &&
    isTemplateUsage usedNames (program.file? path) diagnostic

/-- Drops the reports about unused imports of a file for names used in its templates. -/
def suppressUnusedImports (registry : Registry) (program : Program) (path : Text)
    (diagnostics : List Diagnostic) : List Diagnostic :=
  let usedNames := registry.usedNames path
  if usedNames = [] then diagnostics
  else diagnostics.filter fun diagnostic => !isSuppressed usedNames program path diagnostic

/-- What is logged about dropped reports. -/
def suppressionLog (registry : Registry) (program : Program) (path : Text)
    (diagnostics : List Diagnostic) : List LogRecord :=
  let usedNames := registry.usedNames path
  if usedNames = [] then []
  else
    (diagnostics.filter (isSuppressed usedNames program path)).map fun diagnostic =>
      ⟨.debug, .importRules, "Suppressed TS" ++ Text.ofInt diagnostic.code ++ " in " ++ path ++
        ": " ++ diagnostic.message⟩

end TemplateCheck
