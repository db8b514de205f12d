import TemplateCheck.Diagnostic
import TemplateCheck.FileTree
import TemplateCheck.Json.Writer

/-!
# Reports

What a check has found, as a JSON document and as lines for a console.
-/

namespace TemplateCheck

/-- What a check has found. -/
structure CheckResults where
  target : Text
  files : Int := 0
  components : Int := 0
  diagnostics : List Diagnostic := []
deriving DecidableEq, Repr

/-- How results are shown. -/
inductive ReportFormat where
  | console
  | json
deriving DecidableEq, Repr

/-- What diagnostics mean for the caller: they abort a build, and are only shown when serving. -/
inductive ReportMode where
  | build
  | serve
deriving DecidableEq, Repr

/-- How reports are written: where the document goes, how a file is called on the console, and when
and how long the check ran. -/
structure Reporter where
  output : Location
  display : Text → Text := id
  timestamp : Text
  /-- Seconds as a decimal number. -/
  elapsed : Text

/-- A path as reports show it: relative to the working directory where it lies below that. A path
with a null character leads nowhere and stays as it is. -/
def displayPath (tree : FileTree) (path : Text) : Text :=
  let location := Location.ofText path
  if location.hasNull then location.toText
  else (((Location.resolve tree.here location).relativeTo? tree.here).getD location).toText

namespace Report

/-- What every line about the state of a check starts with. -/
def label : Text := "[elemix-analyser]"

/-! ## The document -/

/-- Counts as an object. -/
def countsJson (counts : OrderedMap Text Nat) : Json :=
  .record (counts.map fun entry => (entry.1, .int entry.2))

/-- A diagnostic as an object. -/
def diagnosticJson (diagnostic : Diagnostic) : Json :=
  .record [("code", .int diagnostic.code), ("severity", .text diagnostic.severity.name),
    ("message", .text diagnostic.message), ("file", .option .text diagnostic.filePath),
    ("start", .option .int diagnostic.start), ("length", .int diagnostic.length),
    ("line", .option .int diagnostic.line), ("character", .option .int diagnostic.character)]

/-- The counts of a check as an object. -/
def summaryJson (results : CheckResults) : Json :=
  .record [("files", .int results.files), ("components", .int results.components),
    ("total_errors", .int (Diagnostic.errors results.diagnostics).length),
    ("total_warnings", .int (Diagnostic.warnings results.diagnostics).length),
    ("by_code", countsJson ((Diagnostic.countByCode results.diagnostics).map fun entry =>
      (Text.ofInt entry.1, entry.2))),
    ("by_file", countsJson (Diagnostic.countByFile results.diagnostics))]

/-- The whole report as an object. -/
def toJson (reporter : Reporter) (results : CheckResults) : Json :=
  .record [("timestamp", .text reporter.timestamp), ("target_path", .text results.target),
    ("execution_time", .number reporter.elapsed), ("summary", summaryJson results),
    ("diagnostics", .array (results.diagnostics.map diagnosticJson))]

/-- The document that is stored. -/
def document (reporter : Reporter) (results : CheckResults) : Text :=
  Json.writeLines (toJson reporter results)

/-! ## The console -/

/-- One line for a diagnostic, with line and column counted from one where they are known. There is
none for a line of a file without its column. -/
def line? (display : Text → Text) (diagnostic : Diagnostic) : Option Text :=
  let message := "] " ++ diagnostic.message
  match diagnostic.filePath, diagnostic.line with
  | some (c :: path), some line =>
    diagnostic.character.map fun character =>
      label ++ ": " ++ display (c :: path) ++ " (" ++ Text.ofInt (line + 1) ++ "," ++
        Text.ofInt (character + 1) ++ "): [TS" ++ Text.ofInt diagnostic.code ++ message
  | _, _ => some ('[' :: Text.ofInt diagnostic.code ++ message)

/-- The lines for a check without diagnostics. -/
def passedLines (reporter : Reporter) (results : CheckResults) : List Text :=
  ["✅ Template check passed! (" ++ Text.ofInt results.components ++ " components in " ++
      Text.ofInt results.files ++ " files)",
    "Detailed report: " ++ reporter.output.toText]

/-- The lines of the counts by code, the highest code first. -/
def codeLines (results : CheckResults) : List Text :=
  "🔍 By diagnostic code:".toList ::
    ((Diagnostic.countByCode results.diagnostics).mergeSort fun a b => b.1 ≤ a.1).map (fun entry =>
      "  • TS" ++ Text.ofInt entry.1 ++ " " ++ DiagnosticCode.labelOf entry.1 ++ ": " ++
        Text.ofNat entry.2) ++ [[]]

/-- The lines of the counts by file, the highest count first; none when no file is known. -/
def fileLines (display : Text → Text) (results : CheckResults) : List Text :=
  let counts := Diagnostic.countByFile results.diagnostics
  if counts = [] then []
  else
    "📁 By file:".toList ::
      (counts.mergeSort fun a b => b.2 ≤ a.2).map (fun entry =>
        "  • " ++ display entry.1 ++ ": " ++ Text.ofNat entry.2) ++ [[]]

/-- The lines that sum up a check with diagnostics. -/
def failedLines (reporter : Reporter) (results : CheckResults) : List Text :=
  [[], "📊 Summary:", List.replicate 72 '=',
      "• Total errors: " ++ Text.ofNat (Diagnostic.errors results.diagnostics).length,
      "• Files checked: " ++ Text.ofInt results.files,
      "• Components found: " ++ Text.ofInt results.components, []] ++
    codeLines results ++ fileLines reporter.display results ++
    ["📋 Detailed results:".toList, List.replicate 72 '-',
      "Full report: " ++ reporter.output.toText, []]

/-- The lines that show the results. -/
def shownLines? (reporter : Reporter) (results : CheckResults) : ReportFormat → Option (List Text)
  | .json => some [document reporter results]
  | .console =>
    if results.diagnostics = [] then some (passedLines reporter results)
    else
      (results.diagnostics.mapM (line? reporter.display)).map (· ++ failedLines reporter results)

/-- Whether the caller may go on. -/
def passes (results : CheckResults) (mode : ReportMode) : Bool :=
  mode = .serve || results.diagnostics.isEmpty

/-- The lines that end a build. -/
def abortLines (results : CheckResults) : List Text :=
  [[], label ++ ": Build Aborted: " ++ Text.ofNat results.diagnostics.length ++
    " template error(s) found"]

/-- Everything that is printed about the results, if each diagnostic can be shown. -/
def printed? (reporter : Reporter) (results : CheckResults) (format : ReportFormat)
    (mode : ReportMode) : Option Text :=
  (shownLines? reporter results format).map fun lines =>
    (lines ++ if passes results mode then [] else abortLines results).flatMap (· ++ ['\n'])

theorem passes_iff (results : CheckResults) (mode : ReportMode) :
    passes results mode = true ↔ mode = .serve ∨ results.diagnostics = [] := by
  simp [passes]

end Report

end TemplateCheck
