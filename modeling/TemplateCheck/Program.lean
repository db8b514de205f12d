import TemplateCheck.Config
import TemplateCheck.Path
import TemplateCheck.Source.File

/-!
# Programs

The source files of one compilation, in order, each under its normal path.
-/

namespace TemplateCheck

/-- Source files under their normal paths. -/
structure Program where
  config : Config
  files : OrderedMap Text SourceFile
deriving DecidableEq, Repr

namespace Program

/-- The program without files. -/
def empty (config : Config) : Program := ⟨config, []⟩

/-- Reads a file into the program, in the place of an earlier version of it. -/
def addFile (program : Program) (path text : Text) : Program :=
  let path := Path.normalize path
  { program with
    files := OrderedMap.put program.files path
      (SourceFile.read program.config.templateTag path text) }

/-- The program with all the given files, each a path and a text. -/
def ofFiles (config : Config) (files : List (Text × Text)) : Program :=
  files.foldl (fun program file => program.addFile file.1 file.2) (empty config)

/-- Takes a file out of the program. -/
def removeFile (program : Program) (path : Text) : Program :=
  { program with files := OrderedMap.remove program.files (Path.normalize path) }

/-- Takes a file out of the program, and tells whether there was one. -/
def takeFile (program : Program) (path : Text) : Program × Bool :=
  (program.removeFile path, (OrderedMap.get? program.files (Path.normalize path)).isSome)

/-- The files in order. -/
def sourceFiles (program : Program) : List SourceFile := OrderedMap.values program.files

/-- The file at a path, however the path is spelled. -/
def file? (program : Program) (path : Text) : Option SourceFile :=
  OrderedMap.get? program.files (Path.normalize path)

/-- Whether the program has a file at a path. -/
def hasFile (program : Program) (path : Text) : Bool :=
  OrderedMap.hasKey program.files (Path.normalize path)

/-! ## Modules -/

/-- What may follow a relative specifier in the path of the module it denotes. -/
def moduleSuffixes : List Text := [".ts", ".tsx", ".d.ts", "/index.ts", "/index.tsx"]

/-- The paths at which the module of a relative specifier is looked for, in order. -/
def moduleCandidates (importer specifier : Text) : List Text :=
  let base := Path.normalize (Path.append (Path.directory (Path.normalize importer)) specifier)
  let candidates := base :: moduleSuffixes.map (base ++ ·)
  match Text.dropEnd? ".js" base with
  | some stem => (stem ++ ".ts") :: candidates
  | none => candidates

/-- The file that a relative specifier denotes in an importing file. -/
def module? (program : Program) (importer specifier : Text) : Option SourceFile :=
  if specifier.head? = some '.' then
    (moduleCandidates importer specifier).findSome? (OrderedMap.get? program.files)
  else none

end Program

end TemplateCheck
