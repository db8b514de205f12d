import TemplateCheck.FileTree
import TemplateCheck.Glob
import TemplateCheck.Text.Blank

/-!
# Exclusion

Which files below a target are left alone. The patterns come from the configuration and from an
ignore file, next to the target or in the working directory.
-/

namespace TemplateCheck

/-- The name of ignore files. -/
def ignoreFileName : Text := ".elemix-ignore"

/-- A target and the patterns of what is left alone below it. -/
structure Exclusion where
  target : Location
  patterns : List WideText
deriving DecidableEq, Repr

namespace Exclusion

/-- The patterns on lines of an ignore file: one on a line, without blanks around it and slashes
behind it. Empty lines and those that start with `#` hold none. -/
def readPatterns (lines : List Text) : List Text :=
  ((lines.map Text.trim).filter fun line => line ≠ [] ∧ line.head? ≠ some '#').map
    (Text.dropRightWhile (· = '/'))

/-- Where an ignore file is looked for: next to the target, then in the working directory. -/
def ignoreFiles (tree : FileTree) (target : Location) : List Location :=
  let directory := if tree.hasDirectory target then target else target.parent
  [directory.below [ignoreFileName], ⟨[], [ignoreFileName]⟩]

/-- The patterns of the first ignore file that can be read. Of those before it, the lines count that
come before what cannot be read. -/
def loadPatterns (tree : FileTree) : List Location → List Text
  | [] => []
  | file :: files =>
    match tree.read file with
    | .ok text => readPatterns (Text.splitOn '\n' text)
    | .error _ => readPatterns (tree.leadingLines file) ++ loadPatterns tree files

/-- The given patterns and those of the ignore files. -/
def load (tree : FileTree) (target : Location) (patterns : List WideText) : Exclusion :=
  ⟨target, patterns ++ (loadPatterns tree (ignoreFiles tree target)).map WideText.ofText⟩

/-- Whether a name is one of a location's parts, the location, or a directory above it. -/
def names (location : Location) (name : Text) : Bool :=
  let path := location.toText
  name ∈ location.parts || path = name || Text.startsWith (name ++ ['/']) path ||
    (Text.dropEnd? "/**" name).any fun directory => Text.startsWith (directory ++ ['/']) path

/-- Whether a pattern covers a location: by its name, or as a glob for all of it. -/
def covers (location : Location) (pattern : WideText) : Bool :=
  pattern.toText?.any (names location) || Text.hasShape pattern location.toText

/-- Whether a location is left alone. Patterns are about the way from the target to it. -/
def excludes (exclusion : Exclusion) (location : Location) : Bool :=
  exclusion.patterns.any (covers ((location.relativeTo? exclusion.target).getD location))

theorem excludes_below (exclusion : Exclusion) (names : List Text) :
    exclusion.excludes (exclusion.target.below names) =
      exclusion.patterns.any (covers ⟨[], names⟩) := by
  simp [excludes, Location.relativeTo?_below]

end Exclusion

end TemplateCheck
