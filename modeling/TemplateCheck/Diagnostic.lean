import TemplateCheck.OrderedMap
import TemplateCheck.Program

/-!
# Diagnostics

A message about a range of a file. Codes of the checker run from 9990 to 9999; two codes of the
host, for unused imports, are known as well, and any other code may be handed in by the host.
-/

namespace TemplateCheck

/-- How bad a diagnostic is. -/
inductive Severity where
  | error
  | warning
deriving DecidableEq, Repr

/-- The severity in words. -/
def Severity.name : Severity → Text
  | error => "error"
  | warning => "warning"

/-- What a diagnostic is about. -/
inductive DiagnosticCode where
  | notImported
  | propTypeMismatch
  | missingRequiredProp
  | nonMultiwordName
  | duplicatedName
  | emitTypeMismatch
  | unknownEmit
  | duplicatedBinding
  | unknownComponent
  | unknownProp
  | unusedDeclaration
  | unusedImportDeclaration
deriving DecidableEq, Repr

namespace DiagnosticCode

/-- The number by which tools know the code. -/
def number : DiagnosticCode → Int
  | notImported => 9999
  | propTypeMismatch => 9998
  | missingRequiredProp => 9997
  | nonMultiwordName => 9996
  | duplicatedName => 9995
  | emitTypeMismatch => 9994
  | unknownEmit => 9993
  | duplicatedBinding => 9992
  | unknownComponent => 9991
  | unknownProp => 9990
  | unusedDeclaration => 6133
  | unusedImportDeclaration => 6192

/-- The code in words. -/
def label : DiagnosticCode → Text
  | notImported => "not imported"
  | propTypeMismatch => "prop type mismatch"
  | missingRequiredProp => "missing required prop"
  | nonMultiwordName => "non multiword name"
  | duplicatedName => "duplicated name"
  | emitTypeMismatch => "emit type mismatch"
  | unknownEmit => "unknown emit"
  | duplicatedBinding => "duplicated binding"
  | unknownComponent => "unknown component"
  | unknownProp => "unknown prop"
  | unusedDeclaration => "unused declaration"
  | unusedImportDeclaration => "unused import declaration"

/-- All codes. -/
def all : List DiagnosticCode :=
  [notImported, propTypeMismatch, missingRequiredProp, nonMultiwordName, duplicatedName,
    emitTypeMismatch, unknownEmit, duplicatedBinding, unknownComponent, unknownProp,
    unusedDeclaration, unusedImportDeclaration]

theorem mem_all (code : DiagnosticCode) : code ∈ all := by cases code <;> decide

/-- The words for a number; an unknown number is the host's. -/
def labelOf (number : Int) : Text :=
  match all.find? (·.number = number) with
  | some code => code.label
  | none => "host"

end DiagnosticCode

/-- A message about a range of a file. -/
structure Diagnostic where
  filePath : Option Text
  start : Option Int
  length : Int
  message : Text
  code : Int
  severity : Severity := .error
  /-- Zero-based line, once the diagnostic is located. -/
  line : Option Int := none
  /-- Zero-based character in the line, once the diagnostic is located. -/
  character : Option Int := none
deriving DecidableEq, Repr

namespace Diagnostic

/-- An error of the checker. -/
def error (filePath : Text) (start length : Int) (message : Text) (code : DiagnosticCode) :
    Diagnostic where
  filePath := some filePath
  start := some start
  length := length
  message := message
  code := code.number

/-- The end of the range. -/
def stop? (diagnostic : Diagnostic) : Option Int := diagnostic.start.map (· + diagnostic.length)

/-- Fills in line and character from the start, where the file is known. -/
def locate (program : Program) (diagnostic : Diagnostic) : Diagnostic :=
  match diagnostic.start, diagnostic.line, diagnostic.filePath.bind program.file? with
  | some start, none, some file =>
    let position := Text.position file.text start
    { diagnostic with line := some position.line, character := some position.character }
  | _, _, _ => diagnostic

/-- How many diagnostics there are of each code, in order of first occurrence. -/
def countByCode (diagnostics : List Diagnostic) : OrderedMap Int Nat :=
  OrderedMap.tally (diagnostics.map (·.code))

/-- How many diagnostics there are for each file, in order of first occurrence. -/
def countByFile (diagnostics : List Diagnostic) : OrderedMap Text Nat :=
  OrderedMap.tally ((diagnostics.filterMap (·.filePath)).filter (· ≠ []))

/-- The diagnostics that are errors. -/
def errors (diagnostics : List Diagnostic) : List Diagnostic :=
  diagnostics.filter (·.severity = .error)

/-- The diagnostics that are warnings. -/
def warnings (diagnostics : List Diagnostic) : List Diagnostic :=
  diagnostics.filter (·.severity = .warning)

end Diagnostic

end TemplateCheck
