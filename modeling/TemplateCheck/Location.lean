import TemplateCheck.Path

/-!
# Locations

A path taken apart into its root and its names. Empty names and `.` are dropped when a path is
read, `..` is kept. Unlike a normal path, a location still says which way was taken.
-/

namespace TemplateCheck

/-- A path as a root, which is empty for a relative path, and the names from there on. -/
structure Location where
  root : Text
  names : List Text
deriving DecidableEq, Repr

namespace Location

/-- The names of a path. -/
def namesOf (path : Text) : List Text :=
  (Text.splitOn '/' path).filter fun name => name ≠ [] ∧ name ≠ ['.']

/-- Reads a path. -/
def ofText (path : Text) : Location := ⟨Path.leadingSlashes path, namesOf path⟩

/-- Writes a location as a path. -/
def toText (location : Location) : Text :=
  if location.root = [] ∧ location.names = [] then ['.']
  else location.root ++ Text.join ['/'] location.names

/-- The root, if there is one, and the names. -/
def parts (location : Location) : List Text :=
  if location.root = [] then location.names else location.root :: location.names

/-- The last name, empty when there is none. -/
def name (location : Location) : Text := location.names.getLastD []

/-- Whether a name holds the null character, which no file's name does. -/
def hasNull (location : Location) : Bool := location.names.any fun name => '\x00' ∈ name

/-- The location of the directory; a root is its own. -/
def parent (location : Location) : Location := { location with names := location.names.dropLast }

/-- The location some names further down. -/
def below (location : Location) (names : List Text) : Location :=
  { location with names := location.names ++ names }

/-- The second location as seen from the first. -/
def append (location other : Location) : Location :=
  if other.root = [] then location.below other.names else other

/-- What follows the first names in a list of names that begins with them. -/
def namesAfter? (base names : List Text) : Option (List Text) :=
  match Path.dropShared base names with
  | ([], rest) => some rest
  | _ => none

theorem namesAfter?_append (base names : List Text) :
    namesAfter? base (base ++ names) = some names := by
  have h : Path.dropShared base (base ++ names) = ([], names) := by
    induction base with
    | nil => cases names <;> rfl
    | cons name base ih => simpa [Path.dropShared] using ih
  simp [namesAfter?, h]

/-- The way from a base down to a location. -/
def relativeTo? (location base : Location) : Option Location :=
  if location.root = base.root then
    (namesAfter? base.names location.names).map fun names => ⟨[], names⟩
  else none

theorem relativeTo?_below (location : Location) (names : List Text) :
    (location.below names).relativeTo? location = some ⟨[], names⟩ := by
  simp [relativeTo?, below, namesAfter?_append]

/-- The location from the root on, with every `..` resolved. -/
def resolve (directory location : Location) : Location :=
  let location := directory.append location
  { location with names := (location.names.foldl (Path.enter true) []).reverse }

/-- The order of two lists of names, name by name. -/
def namesLe : List Text → List Text → Bool
  | [], _ => true
  | _ :: _, [] => false
  | a :: as, b :: bs => if a = b then namesLe as bs else Text.le a b

/-- The order of two locations, part by part. -/
def le (a b : Location) : Bool := namesLe a.parts b.parts

end Location

end TemplateCheck
