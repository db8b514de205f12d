import TemplateCheck.Component

/-!
# The registry

The components, usages and template scans of one compilation, by file. Files come in the order in
which they were first published.
-/

namespace TemplateCheck

/-- Components and scans by file. -/
structure Registry where
  declarations : OrderedMap Text (List Component)
  scans : OrderedMap Text FileScan
  /-- How often the registry was changed. -/
  generation : Nat
deriving DecidableEq, Repr

namespace Registry

/-- The registry that knows nothing. -/
def empty : Registry := ⟨[], [], 0⟩

/-! ## Questions -/

/-- All components, file by file. -/
def components (registry : Registry) : List Component :=
  (OrderedMap.values registry.declarations).flatten

/-- The files that were scanned. -/
def files (registry : Registry) : List Text := OrderedMap.keys registry.scans

/-- The components declared in a file. -/
def componentsIn (registry : Registry) (path : Text) : List Component :=
  (OrderedMap.get? registry.declarations path).getD []

/-- The scan of a file. -/
def scan? (registry : Registry) (path : Text) : Option FileScan :=
  OrderedMap.get? registry.scans path

/-- The component tags used in a file. -/
def usedIn (registry : Registry) (path : Text) : List UsedComponent :=
  ((registry.scan? path).map (·.used)).getD []

/-- The template scans of a file. -/
def templatesIn (registry : Registry) (path : Text) : List TemplateScan :=
  ((registry.scan? path).map (·.templates)).getD []

/-- The first component with a name. -/
def find? (registry : Registry) (name : Text) : Option Component :=
  registry.components.find? (·.name = name)

/-- The first usage of a name in a file. -/
def findUsed? (registry : Registry) (path name : Text) : Option UsedComponent :=
  (registry.usedIn path).find? (·.name = name)

/-- The distinct names used in a file, in order of first use. -/
def usedNames (registry : Registry) (path : Text) : List Text :=
  distinct ((registry.usedIn path).map (·.name))

/-! ## Changes -/

/-- Marks the duplicated names anew. -/
def remark (registry : Registry) : Registry :=
  let counts := nameCounts registry.components
  { registry with
    declarations := registry.declarations.map fun entry =>
      (entry.1, entry.2.map (Component.markBy counts)) }

theorem remark_eq (registry : Registry) :
    registry.remark = { registry with
      declarations := registry.declarations.map fun entry =>
        (entry.1, entry.2.map (Component.mark registry.components)) } := by
  rw [remark, Component.markBy_nameCounts]

/-- The registry counted as changed once more. -/
def changed (registry : Registry) : Registry :=
  { registry with generation := registry.generation + 1 }

/-- Forgets everything. -/
def reset (registry : Registry) : Registry := ⟨[], [], registry.generation + 1⟩

/-- Replaces the components of a file; a file without components is not kept. -/
def publish (registry : Registry) (path : Text) (components : List Component) : Registry :=
  let declarations :=
    if components = [] then OrderedMap.remove registry.declarations path
    else OrderedMap.put registry.declarations path components
  ({ registry with declarations := declarations }).remark.changed

/-- Replaces the scan of a file. -/
def setScan (registry : Registry) (path : Text) (scan : FileScan) : Registry :=
  ({ registry with scans := OrderedMap.put registry.scans path scan }).changed

/-- Forgets a file. The names are marked anew only when components of it were kept. -/
def removeFile (registry : Registry) (path : Text) : Registry :=
  let left : Registry :=
    { registry with
      declarations := OrderedMap.remove registry.declarations path
      scans := OrderedMap.remove registry.scans path }
  (if registry.componentsIn path = [] then left else left.remark).changed

/-! ## Filling -/

/-- Publishes the components and the scan of one file of a program. -/
def addFile (program : Program) (registry : Registry) (file : SourceFile) : Registry :=
  (registry.publish file.path (TemplateCheck.componentsIn program file)).setScan file.path
    (FileScan.ofFile file)

/-- Fills the registry anew from all files of a program. -/
def populate (program : Program) (registry : Registry) : Registry :=
  program.sourceFiles.foldl (addFile program) registry.reset

/-- What is logged while a file is added. -/
def additionLog (config : Config) (file : SourceFile) : List LogRecord :=
  let scan := FileScan.ofFile file
  skippedClasses config file ++
    (if scan.templates = [] then []
    else [⟨.debug, .scanner, "Scanned " ++ Text.ofNat scan.templates.length ++ " templates in " ++
      file.path ++ " (" ++ Text.ofNat scan.used.length ++ " usages)"⟩])

end Registry

end TemplateCheck
