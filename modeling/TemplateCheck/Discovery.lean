import TemplateCheck.Exclusion
import TemplateCheck.Log
import TemplateCheck.Program

/-!
# Discovery

The source files of a target. A file stands for itself. A directory stands for what lies below it
and has one of the given endings, except tests, ambient declarations and what is excluded.

An ending follows a star and may hold globs of its own, over several names. Each part of it leads
from a location to others: `**` to all directories at and below it, a glob to the entries it fits,
and any other name, `..` too, to what stands there. Only the last part may lead to a file, and a
slash behind it asks for a directory there as well.
-/

namespace TemplateCheck

/-- Whether a file holds tests. -/
def isTestFile (location : Location) : Bool :=
  Text.contains ".test." location.name || Text.contains ".spec." location.name ||
    "__tests__".toList ∈ location.parts

/-- Whether a file holds ambient declarations. -/
def isDeclarationFile (location : Location) : Bool := Text.endsWith ".d.ts" location.name

/-- Why files cannot be looked for. -/
inductive DiscoveryError where
  /-- Two stars stand beside other characters. -/
  | doubleStar
  /-- The target has too long a name. -/
  | nameTooLong
deriving DecidableEq, Repr

/-- The error in words. -/
def DiscoveryError.message : DiscoveryError → Text
  | doubleStar => "Invalid pattern: '**' can only be an entire path component"
  | nameTooLong => "A name is too long"

namespace Discovery

/-- The part of a pattern that stands for any number of directories. -/
def anyDepth : WideText := [.char '*', .char '*']

/-- Whether a part of a pattern is a glob and not a name. -/
def isGlob (part : WideText) : Bool := .char '*' ∈ part || .char '?' ∈ part || .char '[' ∈ part

/-- The parts of the pattern for an ending, from the target on. An empty part stands for a slash at
the end. -/
def partsFor (ending : WideText) : List WideText :=
  let parts := (Text.splitOn (.char '/') (.char '*' :: ending)).filter fun part =>
    part ≠ [] ∧ part ≠ [.char '.']
  anyDepth :: parts ++ if ending.getLast? = some (.char '/') then [[]] else []

/-- Whether two stars stand side by side. -/
def hasDoubleStar : WideText → Bool
  | [] => false
  | p :: rest => anyDepth.isPrefixOf (p :: rest) || hasDoubleStar rest

/-- Whether a part of a pattern can be followed. -/
def isValidPart (part : WideText) : Bool := part = anyDepth || !hasDoubleStar part

/-- Where the parts of a pattern lead from a location. -/
def follow (tree : FileTree) : (parts : List WideText) → Location → List Location
  | [], location => [location]
  | part :: parts, location =>
    if part = [] then [location]
    else if part = anyDepth then
      (tree.directoriesBelow location).flatMap (follow tree parts)
    else if isGlob part then
      ((tree.children location).filter fun child =>
        (parts = [] || child.2.isDirectory) && Text.hasShape part child.1).flatMap fun child =>
          follow tree parts (location.below [child.1])
    else
      match part.toText? with
      | none => []
      | some name =>
        let next := location.below [name]
        if if parts = [] then tree.present next else tree.hasDirectory next then
          follow tree parts next
        else []

/-- The entries below a target with one of the endings; one with several of them comes often. -/
def entries (tree : FileTree) (target : Location) (endings : List WideText) :
    Except DiscoveryError (List Location) :=
  let patterns := endings.map partsFor
  if patterns.all (·.all isValidPart) then
    .ok (patterns.flatMap fun parts => follow tree parts target)
  else .error .doubleStar

/-- The source files of a target, in the order of their parts. -/
def sources (tree : FileTree) (target : Location) (endings : List WideText)
    (exclusion : Option Exclusion) : Except DiscoveryError (List Location) :=
  if tree.isTooLong target then .error .nameTooLong
  else if tree.hasFile target then .ok [target]
  else
    (entries tree target endings).map fun found =>
      ((found.mergeSort Location.le).eraseReps).filter fun location =>
        !(isTestFile location || isDeclarationFile location ||
          exclusion.any (·.excludes location))

end Discovery

/-- Reads the source files of a target into a program. What is not readable text counts as empty. -/
def Program.load (tree : FileTree) (config : Config) (exclusion : Exclusion) :
    Except DiscoveryError Program :=
  (Discovery.sources tree exclusion.target config.extensions (some exclusion)).map fun found =>
    Program.ofFiles config (found.map fun location =>
      (location.toText, (tree.read location).toOption.getD []))

/-- What is logged when a program has been loaded. -/
def Program.loadLog (program : Program) (target : Location) : List LogRecord :=
  [⟨.debug, .program, "Loaded " ++ Text.ofNat program.files.length ++ " source files from " ++
    target.toText⟩]

end TemplateCheck
