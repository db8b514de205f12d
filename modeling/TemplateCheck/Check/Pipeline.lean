import TemplateCheck.Check.Attribute
import TemplateCheck.Check.BindingType
import TemplateCheck.Check.Naming
import TemplateCheck.Check.Usage

/-!
# The pipeline

Checking is a sequence of stages. A stage takes the diagnostics so far and, for one file, drops
some of them or adds its own. Every stage runs for every file; a stage that fails for a file is
logged, and what was found before it stays.
-/

namespace TemplateCheck

/-- What the stages look at. -/
structure CheckContext where
  registry : Registry
  program : Program
  oracle : TypeOracle
  /-- Limits the run to one file. -/
  filePath : Option Text

/-- The files that a run covers: the one it is limited to, or those of the program, then those that
only the registry knows. -/
def CheckContext.filePaths (context : CheckContext) : List Text :=
  match context.filePath with
  | some path => [path]
  | none =>
    let paths := context.program.sourceFiles.map (·.path)
    paths ++ context.registry.files.filter (· ∉ paths)

/-- Diagnostics and what was logged on the way to them. -/
structure Checked where
  diagnostics : List Diagnostic
  log : List LogRecord

/-- A step of the pipeline for one file; it may fail with a reason. -/
structure Stage where
  name : Text
  run : CheckContext → (path : Text) → List Diagnostic → Except Text Checked

namespace Stage

/-- A stage that adds what a check finds. -/
def adding (name : Text) (check : CheckContext → Text → List Diagnostic)
    (log : CheckContext → Text → List LogRecord) : Stage where
  name := name
  run context path prior := .ok ⟨prior ++ check context path, log context path⟩

/-- Drops reports about unused imports of components that templates use. -/
def suppressTemplateImports : Stage where
  name := "suppress_template_imports"
  run context path prior := .ok
    ⟨suppressUnusedImports context.registry context.program path prior,
      suppressionLog context.registry context.program path prior⟩

/-- Checks that used components are imported. -/
def checkImports : Stage :=
  adding "check_imports" (fun context path => checkUsages context.registry context.program path)
    fun _ _ => []

/-- Checks the names of components. -/
def checkNames : Stage :=
  adding "check_names"
    (fun context path =>
      checkMultiwordNames context.registry path ++ checkDuplicatedNames context.registry path)
    fun _ _ => []

/-- Checks the attributes of component tags. -/
def checkProps : Stage :=
  adding "check_props"
    (fun context path =>
      checkRequiredProps context.registry path ++ checkUnknownAttributes context.registry path ++
        checkRepeatedAttributes context.registry path)
    fun _ _ => []

/-- Checks the types of bindings. -/
def checkTypes : Stage :=
  adding "check_types"
    (fun context path => checkBindingTypes context.registry context.oracle path)
    fun context path => bindingTypeLog context.registry context.oracle path

/-- The stages of a regular run, in order. -/
def regular : List Stage :=
  [suppressTemplateImports, checkImports, checkNames, checkProps, checkTypes]

/-- Runs one stage for one file; a failure leaves the diagnostics as they are. -/
def step (context : CheckContext) (path : Text) (sofar : Checked) (stage : Stage) : Checked :=
  match stage.run context path sofar.diagnostics with
  | .ok next => ⟨next.diagnostics, sofar.log ++ next.log⟩
  | .error reason =>
    ⟨sofar.diagnostics, sofar.log ++
      [⟨.warning, .validator, "Stage " ++ stage.name ++ " failed for " ++ path ++ ": " ++ reason⟩]⟩

end Stage

/-- Runs the stages for every file of the context, from the diagnostics of the host on, and locates
the result. -/
def runPipeline (host : List Diagnostic) (context : CheckContext) (stages : List Stage) :
    Checked :=
  let checked := context.filePaths.foldl
    (fun sofar path => stages.foldl (Stage.step context path) sofar) ⟨host, []⟩
  { checked with diagnostics := checked.diagnostics.map (Diagnostic.locate context.program) }

/-- The reports of a host about unused imports in all files, if the program asks for them. -/
def hostDiagnostics (program : Program) : List Diagnostic :=
  if program.config.reportUnusedImports then
    program.sourceFiles.flatMap fun file => findUnusedImports program file.path
  else []

/-- Checks a whole program against a registry. -/
def checkProgram (program : Program) (registry : Registry) : Checked :=
  runPipeline (hostDiagnostics program)
    ⟨registry, program, TypeOracle.ofProgram program, none⟩ Stage.regular

end TemplateCheck
