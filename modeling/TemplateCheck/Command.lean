import TemplateCheck.Arguments
import TemplateCheck.Check.Pipeline
import TemplateCheck.Config.Reader
import TemplateCheck.Discovery

/-!
# The command

A run of the checker as a function: from what it sees of the machine and what it was asked for to
what it prints, what it stores and how it ends. The log file is there before anything is read, so a
run sees its own log file.
-/

namespace TemplateCheck

/-- What a run sees of the machine. -/
structure Surroundings where
  tree : FileTree
  /-- The time as it stands in reports. -/
  timestamp : Text
  /-- The time as it stands in log files. -/
  logTime : Text
  /-- The seconds that the check took, as a decimal number. -/
  elapsed : Text
  /-- How the machine words a failure to read. -/
  reason : ReadFailure → Text

/-- A change of one file. -/
inductive FileChange where
  | append (location : Location) (text : Text)
  | replace (location : Location) (text : Text)
deriving DecidableEq, Repr

/-- Makes a change. -/
def FileTree.apply (tree : FileTree) : FileChange → Except WriteFailure FileTree
  | .replace location text => tree.write location text
  | .append location text => tree.append location text

/-- How a run ends. -/
structure Outcome where
  exitCode : Nat
  printed : Text := []
  /-- What is printed about the run itself. -/
  notices : Text := []
  changes : List FileChange := []
deriving DecidableEq, Repr

/-- Why a run breaks off. -/
inductive Failure where
  | config (error : ConfigError)
  | discovery (error : DiscoveryError)
  | write (failure : WriteFailure)
  /-- An option that needs a location was given none. -/
  | noLocation (switch : Switch)
  /-- A diagnostic has a line and no column. -/
  | noColumn
deriving DecidableEq, Repr

/-- The failure in words. -/
def Failure.message : Failure → Text
  | config error => error.message
  | discovery error => error.message
  | write .isDirectory => "Cannot write to a directory"
  | write .fileInTheWay => "Cannot make a directory in the place of a file"
  | write .notDirectory => "Cannot make a directory below a file"
  | write .nullCharacter => "A path holds a null character"
  | write .nameTooLong => "A name is too long"
  | noLocation switch => "argument " ++ switch.title ++ ": no location"
  | noColumn => "A diagnostic has no column"

namespace Command

/-! ## Logs -/

/-- A record on the console. -/
def consoleLine (record : LogRecord) : Text :=
  Report.label ++ " " ++ record.level.name ++ " " ++ record.message ++ "\n"

/-- A record in a log file. -/
def logFileLine (time : Text) (record : LogRecord) : Text :=
  "[" ++ record.level.name ++ "][" ++ time ++ "] " ++ record.area.name ++ ": " ++ record.message ++
    "\n"

/-- What the console shows of a log: warnings, and everything on demand. -/
def consoleLog (verbose : Bool) (log : List LogRecord) : Text :=
  (log.filter fun record => verbose || record.level = .warning).flatMap consoleLine

/-- The change that a log makes to its file, if there is one. -/
def logChange (surroundings : Surroundings) (logFile : Option Location) (log : List LogRecord) :
    List FileChange :=
  (logFile.map fun location =>
    .append location (log.flatMap (logFileLine surroundings.logTime))).toList

/-- The files after some changes. -/
def treeAfter (surroundings : Surroundings) (changes : List FileChange) : Except Failure FileTree :=
  (changes.foldlM FileTree.apply surroundings.tree).mapError .write

/-! ## Checking -/

/-- Checks the files of a target. -/
def check (tree : FileTree) (config : Config) (exclusion : Exclusion) :
    Except DiscoveryError (CheckResults × List LogRecord) := do
  let target := exclusion.target
  if tree.isTooLong target then .error .nameTooLong
  else if tree.present target then
    let program ← Program.load tree config exclusion
    let registry := Registry.populate program Registry.empty
    let checked := checkProgram program registry
    let results : CheckResults :=
      { target := target.toText, files := program.files.length,
        components := registry.components.length, diagnostics := checked.diagnostics }
    return (results, program.loadLog target ++
      program.sourceFiles.flatMap (Registry.additionLog config) ++ checked.log ++
      [⟨.debug, .checker, "Checked " ++ Text.ofInt results.files ++ " files, " ++
        Text.ofInt results.components ++ " components, " ++
        Text.ofNat results.diagnostics.length ++ " diagnostics"⟩])
  else
    return ({ target := target.toText },
      [⟨.warning, .checker, "Target path " ++ target.toText ++ " does not exist"⟩])

/-! ## Running -/

/-- What a run has found and logged before it reports. -/
structure Examination where
  results : CheckResults
  log : List LogRecord
deriving DecidableEq, Repr

/-- The location that an option points to, if it was given. -/
def locationOf? (switch : Switch) : Pointer → Except Failure (Option Location)
  | .unset => .ok none
  | .void => .error (.noLocation switch)
  | .location location => .ok (some location)

/-- How deep a configuration may be nested: a run takes one level for itself. -/
def nestingLimit : Nat := Json.nestingLimit - 1

/-- Opens the log, reads the configuration and checks the target. -/
def examine (surroundings : Surroundings) (options : Options) : Except Failure Examination := do
  let logFile ← locationOf? .logFile options.logFile
  let tree ← treeAfter surroundings (logChange surroundings logFile [])
  let asked ← locationOf? .config options.config
  let (config, log) ←
    (Config.load tree surroundings.reason nestingLimit options.target asked).mapError .config
  let tree ← treeAfter surroundings (logChange surroundings logFile log)
  let exclusion := Exclusion.load tree options.target config.excludePaths
  let (results, checkLog) ← (check tree config exclusion).mapError .discovery
  return ⟨results, log ++ checkLog⟩

/-- Where the report goes when nothing else was asked for. -/
def usualOutput : Location := ⟨[], ["test-results", "elemix-check.json"]⟩

/-- Reports what a run has found. -/
def report (surroundings : Surroundings) (options : Options) (examination : Examination) :
    Except Failure Outcome := do
  let output := (← locationOf? .output options.output).getD usualOutput
  let reporter : Reporter := {
    output := output
    display := displayPath surroundings.tree
    timestamp := surroundings.timestamp
    elapsed := surroundings.elapsed }
  let results := examination.results
  let changes :=
    logChange surroundings (← locationOf? .logFile options.logFile) examination.log ++
      [.replace output (Report.document reporter results)]
  let _ ← treeAfter surroundings changes
  match Report.printed? reporter results options.format options.mode with
  | some printed =>
    return {
      exitCode := if Report.passes results options.mode then 0 else 1
      printed := printed
      notices := consoleLog options.verbose examination.log
      changes := changes }
  | none => .error .noColumn

/-- Ends a run. A configuration file that is not there is told to the user, and any other failure
breaks the run off. -/
def conclude (surroundings : Surroundings) (options : Options) :
    Except Failure Examination → Except Failure Outcome
  | .ok examination => report surroundings options examination
  | .error (.config (.missing location)) => do
    return {
      exitCode := 2
      notices := Report.label ++ ": " ++ (ConfigError.missing location).message ++ "\n"
      changes := logChange surroundings (← locationOf? .logFile options.logFile) [] }
  | .error failure => .error failure

/-- A run of the checker. -/
def run (surroundings : Surroundings) (options : Options) : Except Failure Outcome :=
  conclude surroundings options (examine surroundings options)

end Command

end TemplateCheck
