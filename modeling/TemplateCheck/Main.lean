import Std.Time
import TemplateCheck.Command

/-!
# The program

Looks at the part of the machine that a run may read, runs the command on it and does what comes
out. Everything that is decided is decided by the command.
-/

namespace TemplateCheck

namespace Machine

/-! ## Looking at the machine -/

/-- The absolute path of a place. -/
def pathOf (place : List Text) : String := String.ofList ('/' :: Text.join ['/'] place)

/-- What stands at a place of the machine; a file comes with its bytes on demand only. -/
def lookAt (place : List Text) (withBytes : Bool) : IO (Option Entry) := do
  let path := (← IO.currentDir) / pathOf place
  if ← path.isDir then return some (.directory [])
  else if ← path.pathExists then
    if withBytes then return some (.file (← IO.FS.readBinFile path).toList)
    else return some (.file [])
  else return none

/-- Records what stands at a place; of a directory that is known, nothing is forgotten. -/
def record (tree : FileTree) (place : List Text) (withBytes : Bool) : IO FileTree := do
  match ← lookAt place withBytes with
  | some entry =>
    if entry.isDirectory ∧ (tree.entryAt? place).any (·.isDirectory) then return tree
    else return tree.put place entry
  | none => return tree

/-- Records every place on the way along names, the last one with its bytes. -/
def recordWay (tree : FileTree) (place : List Text) : List Text → IO FileTree
  | [] => record tree place true
  | name :: names => do recordWay (← record tree place false) (FileTree.step place name) names

/-- Records a location. -/
def recordLocation (tree : FileTree) (location : Location) : IO FileTree :=
  recordWay tree (tree.origin location) location.names

/-- Records what stands below a directory, without the bytes of files. -/
partial def recordBelow (tree : FileTree) (place : List Text) : IO FileTree := do
  let mut tree := tree
  for entry in ← ((← IO.currentDir) / pathOf place).readDir do
    let child := place ++ [entry.fileName.toList]
    tree ← record tree child false
    if (tree.entryAt? child).any (·.isDirectory) ∧
        (← entry.path.symlinkMetadata).type != .symlink then
      tree ← recordBelow tree child
  return tree

/-- The configuration files that may count for a target: one in every directory above it. -/
def configPlaces (tree : FileTree) (target : Location) : List Location :=
  let names := (Location.resolve tree.here target).names
  (List.range (names.length + 1)).map fun n => ⟨['/'], names.take n ++ [configFileName]⟩

/-- How a failure to read is worded. -/
def reason : ReadFailure → Text
  | .missing => "no such file"
  | .isDirectory => "is a directory"
  | .notUtf8 => "is not UTF-8 text"
  | .notJson => "is not JSON"

/-- The part of the machine that a run may read: the way to each file that is named, everything
below the target, and the bytes of what a first look shows to be source files. -/
def lookAround (options : Options) : IO FileTree := do
  let here := (← IO.currentDir).toString.toList
  let mut tree : FileTree := ⟨.directory [], Location.namesOf here⟩
  tree ← recordLocation tree ⟨[], []⟩
  tree ← recordLocation tree options.target
  match tree.find? options.target with
  | some (place, .directory _) => tree ← recordBelow tree place
  | _ => pure ()
  let named := [options.config, options.logFile, options.output].filterMap fun
    | .location location => some location
    | _ => none
  for location in configPlaces tree options.target ++ Exclusion.ignoreFiles tree options.target ++
      Command.usualOutput :: named do
    tree ← recordLocation tree location
  let asked := (Command.locationOf? .config options.config).toOption.join
  match Config.load tree reason Command.nestingLimit options.target asked with
  | .ok (config, _) =>
    let found := Discovery.sources tree options.target config.extensions none
    for location in found.toOption.getD [] do
      tree ← recordLocation tree location
  | .error _ => pure ()
  return tree

/-! ## Acting on the machine -/

/-- Makes a change of one file, and the directories above it. -/
def perform (change : FileChange) : IO Unit := do
  let location := match change with
    | .append location _ | .replace location _ => location
  let path := (← IO.currentDir) / String.ofList location.toText
  match path.parent with
  | some directory => IO.FS.createDirAll directory
  | none => pure ()
  match change with
  | .append _ text => (← IO.FS.Handle.mk path .append).putStr (String.ofList text)
  | .replace _ text => IO.FS.writeFile path (String.ofList text)

/-- Milliseconds as seconds. -/
def secondsOf (milliseconds : Nat) : Text :=
  let rest := Text.ofNat (milliseconds % 1000)
  Text.ofNat (milliseconds / 1000) ++ '.' :: List.replicate (3 - rest.length) '0' ++ rest

/-- How the program is called. -/
def usage : String :=
  "usage: elemix-check [-h] [--format {console,json}] [--mode {build,serve}] " ++
    "[--config CONFIG] [--output OUTPUT] [--verbose] [--log-file LOG_FILE] [target_path]"

/-- Runs the checker. -/
def check (options : Options) : IO UInt32 := do
  let start ← IO.monoMsNow
  let now ← Std.Time.PlainDateTime.now
  let surroundings : Surroundings := {
    tree := ← lookAround options
    timestamp := (now.format "uuuu-MM-dd'T'HH:mm:ss.SSSSSS").toList
    logTime := (now.format "uuuu-MM-dd HH:mm:ss,SSS").toList
    elapsed := "0.0"
    reason := reason }
  let examined ← IO.lazyPure fun _ => Command.examine surroundings options
  let stop ← IO.monoMsNow
  let surroundings := { surroundings with elapsed := secondsOf (stop - start) }
  match Command.conclude surroundings options examined with
  | .ok outcome =>
    (← IO.getStderr).putStr (String.ofList outcome.notices)
    for change in outcome.changes do
      perform change
    (← IO.getStdout).putStr (String.ofList outcome.printed)
    return outcome.exitCode.toUInt32
  | .error failure =>
    IO.eprintln ("elemix-check: error: " ++ String.ofList failure.message)
    return 1

end Machine

end TemplateCheck

/-- Checks component templates against component declarations. -/
def main (arguments : List String) : IO UInt32 := do
  match TemplateCheck.Request.ofTexts (arguments.map String.toList) with
  | .ok (.check options) => TemplateCheck.Machine.check options
  | .ok .help =>
    IO.println TemplateCheck.Machine.usage
    return 0
  | .error error =>
    IO.eprintln TemplateCheck.Machine.usage
    IO.eprintln ("elemix-check: error: " ++ String.ofList error.message)
    return 2
