import TemplateCheck.Location
import TemplateCheck.OrderedMap
import TemplateCheck.Text.Utf8

/-!
# File trees

Directories and files as a value: a root directory, and the place that relative locations start
from, a place being the names from the root on. A location is walked name by name, so that `..`
counts only behind a directory that exists.
-/

namespace TemplateCheck

/-- A file with its bytes, or a directory with its named entries. -/
inductive Entry where
  | file (bytes : List UInt8)
  | directory (children : List (Text × Entry))

namespace Entry

/-- Whether the entry is a directory. -/
def isDirectory : Entry → Bool
  | file _ => false
  | directory _ => true

/-- The entries of a directory; a file has none. -/
def children : Entry → OrderedMap Text Entry
  | file _ => []
  | directory children => children

/-- The entry some names further down. -/
def at? : List Text → Entry → Option Entry
  | [], entry => some entry
  | name :: names, entry => (OrderedMap.get? entry.children name).bind (at? names)

/-- Stores an entry some names further down; what is missing on the way becomes a directory. -/
def put (new : Entry) : List Text → Entry → Entry
  | [], _ => new
  | name :: names, entry =>
    let child := (OrderedMap.get? entry.children name).getD (directory [])
    directory (OrderedMap.put entry.children name (put new names child))

mutual

/-- The entry at the given names and all entries below it, each with the names that lead to it. -/
def listFrom (names : List Text) : Entry → List (List Text × Entry)
  | file bytes => [(names, file bytes)]
  | directory children => (names, directory children) :: listChildren names children

/-- The entries at and below the children of the directory at the given names. -/
def listChildren (names : List Text) : List (Text × Entry) → List (List Text × Entry)
  | [] => []
  | (name, entry) :: rest => listFrom (names ++ [name]) entry ++ listChildren names rest

end

end Entry

/-- Why a file could not be read as text. -/
inductive ReadFailure where
  | missing
  | isDirectory
  | notUtf8
  | notJson
deriving DecidableEq, Repr

/-- Why a file could not be written. -/
inductive WriteFailure where
  /-- It is a directory. -/
  | isDirectory
  /-- A directory cannot be made, because there is a file of that name. -/
  | fileInTheWay
  /-- The way to it leads through a file. -/
  | notDirectory
  /-- A name holds the null character. -/
  | nullCharacter
  /-- A name, or the path as a whole, has too many bytes. -/
  | nameTooLong
deriving DecidableEq, Repr

/-- A root directory and the place of the working directory. -/
structure FileTree where
  root : Entry
  workingDirectory : List Text

namespace FileTree

/-! ## Looking -/

/-- The entry at a place. -/
def entryAt? (tree : FileTree) (place : List Text) : Option Entry := tree.root.at? place

/-- One step from a place. -/
def step (place : List Text) (name : Text) : List Text :=
  if name = ['.', '.'] then place.dropLast else place ++ [name]

/-- Walks from an entry along names, through directories. The directories above the entry come with
the names that lead out of them, the nearest one first. -/
def walk? (above : List (Text × Entry)) : Entry → List Text → Option (List Text × Entry)
  | entry, [] => some ((above.map (·.1)).reverse, entry)
  | .file _, _ :: _ => none
  | .directory children, name :: names =>
    if name = ['.', '.'] then
      match above with
      | [] => walk? [] (.directory children) names
      | (_, parent) :: above => walk? above parent names
    else
      match OrderedMap.get? children name with
      | some child => walk? ((name, .directory children) :: above) child names
      | none => none

/-- The place at which a location starts. -/
def origin (tree : FileTree) (location : Location) : List Text :=
  if location.root = [] then tree.workingDirectory else []

/-- The place of a location and what stands there. -/
def find? (tree : FileTree) (location : Location) : Option (List Text × Entry) :=
  walk? [] tree.root (tree.origin location ++ location.names)

/-- The most bytes in a name. -/
def nameLimit : Nat := 255

/-- The most bytes in a path. -/
def pathLimit : Nat := 4095

/-- Whether a name has too many bytes. -/
def isLongName (name : Text) : Bool := nameLimit < (Text.toUtf8 name).length

/-- Whether a path has too many bytes. -/
def isLongPath (location : Location) : Bool := pathLimit < (Text.toUtf8 location.toText).length

/-- Whether nothing can be said of a location, because it is too long or the way to it comes to a
name that is. -/
def isTooLong (tree : FileTree) (location : Location) : Bool :=
  let names := tree.origin location ++ location.names
  let short := names.takeWhile fun name => !isLongName name
  isLongPath location ||
    (short ≠ names && (walk? [] tree.root short).any fun found => found.2.isDirectory)

/-- Whether something stands at a location. -/
def present (tree : FileTree) (location : Location) : Bool := (tree.find? location).isSome

/-- Whether a file stands at a location. -/
def hasFile (tree : FileTree) (location : Location) : Bool :=
  match tree.find? location with
  | some (_, .file _) => true
  | _ => false

/-- Whether a directory stands at a location. -/
def hasDirectory (tree : FileTree) (location : Location) : Bool :=
  match tree.find? location with
  | some (_, .directory _) => true
  | _ => false

/-- The entries at and below the directory at a location, each with the names that lead to it. -/
def entriesBelow (tree : FileTree) (location : Location) : List (List Text × Entry) :=
  match tree.find? location with
  | some (_, .directory children) => (Entry.directory children).listFrom []
  | _ => []

/-- The entries in the directory at a location, each with its name. -/
def children (tree : FileTree) (location : Location) : List (Text × Entry) :=
  ((tree.find? location).map (·.2.children)).getD []

/-- The directories at and below a location. -/
def directoriesBelow (tree : FileTree) (location : Location) : List Location :=
  ((tree.entriesBelow location).filter (·.2.isDirectory)).map fun entry => location.below entry.1

/-- The bytes of the file at a location. -/
def bytesAt? (tree : FileTree) (location : Location) : Option (List UInt8) :=
  match tree.find? location with
  | some (_, .file bytes) => some bytes
  | _ => none

/-- Reads the file at a location as text; every line ends with one line feed. -/
def read (tree : FileTree) (location : Location) : Except ReadFailure Text :=
  match tree.find? location with
  | none => .error .missing
  | some (_, .directory _) => .error .isDirectory
  | some (_, .file bytes) =>
    match Text.ofUtf8? bytes with
    | some text => .ok (Text.unixLines text)
    | none => .error .notUtf8

/-- A file is read in blocks of this many bytes. -/
def blockSize : Nat := 8192

/-- The lines of the file at a location that have ended when the first block that is not UTF-8 is
reached, or the end of the file. -/
def leadingLines (tree : FileTree) (location : Location) : List Text :=
  match tree.bytesAt? location with
  | none => []
  | some bytes =>
    let blocks := (List.range (bytes.length / blockSize + 2)).reverse
    ((blocks.findSome? fun n => Text.openUtf8? (bytes.take (n * blockSize))).map
      Text.endedLines).getD []

/-- The working directory as a location. -/
def here (tree : FileTree) : Location := ⟨['/'], tree.workingDirectory⟩

/-! ## Changing -/

/-- Stores an entry at a place. -/
def put (tree : FileTree) (place : List Text) (entry : Entry) : FileTree :=
  { tree with root := Entry.put entry place tree.root }

/-- Makes the directories along names that are missing, and gives the place that they lead to. A
file among them is in the way of its own directory, or of one to be made after others were;
otherwise it only breaks the way. A directory is not made if its name is too long. -/
def makeWay (tree : FileTree) (made : Bool) (place : List Text) :
    List Text → Except WriteFailure (FileTree × List Text)
  | [] => .ok (tree, place)
  | name :: names =>
    let place := step place name
    match tree.entryAt? place with
    | some (.directory _) => tree.makeWay made place names
    | some (.file _) => .error (if made || names.isEmpty then .fileInTheWay else .notDirectory)
    | none =>
      if isLongName name then .error .nameTooLong
      else (tree.put place (.directory [])).makeWay true place names

/-- Makes the directory at a location, and those above it. -/
def makeDirectory (tree : FileTree) (location : Location) :
    Except WriteFailure (FileTree × List Text) :=
  if location.hasNull then .error .nullCharacter
  else if isLongPath location then .error .nameTooLong
  else tree.makeWay false (tree.origin location) location.names

/-- Changes the bytes of the file at a location. A file that is not there yet starts empty, and its
directory is made. -/
def update (tree : FileTree) (location : Location) (change : List UInt8 → List UInt8) :
    Except WriteFailure FileTree := do
  let (tree, place) ← tree.makeDirectory location.parent
  if location.hasNull then .error .nullCharacter
  else if isLongName location.name || isLongPath location then .error .nameTooLong
  else
    let place := if location.names = [] then place else step place location.name
    match tree.entryAt? place with
    | some (.directory _) => .error .isDirectory
    | some (.file bytes) => .ok (tree.put place (.file (change bytes)))
    | none => .ok (tree.put place (.file (change [])))

/-- Stores a text as a file. -/
def write (tree : FileTree) (location : Location) (text : Text) : Except WriteFailure FileTree :=
  tree.update location fun _ => Text.toUtf8 text

/-- Adds a text to the end of a file. -/
def append (tree : FileTree) (location : Location) (text : Text) : Except WriteFailure FileTree :=
  tree.update location (· ++ Text.toUtf8 text)

end FileTree

end TemplateCheck
