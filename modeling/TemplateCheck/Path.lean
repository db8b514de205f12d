import TemplateCheck.Pattern

/-!
# Paths

Paths with `/` between their segments. `normalize` is the spelling under which a program knows a
file, `relative` leads from one directory to another, and `specifier` is how one module imports
another. Relative paths start at the root directory.
-/

namespace TemplateCheck

namespace Path

/-! ## Normal form -/

/-- One step to a segment: an empty segment and `.` stay, `..` goes back where it can. The segments
so far come with the latest first; `rooted` says that they hang off the root. -/
def enter (rooted : Bool) (segments : List Text) (segment : Text) : List Text :=
  if segment = [] ∨ segment = ['.'] then segments
  else if segment = ['.', '.'] then
    match segments with
    | [] => if rooted then [] else [segment]
    | last :: before => if last = ['.', '.'] then segment :: segments else before
  else segment :: segments

/-- The slashes that a normal path keeps at its start: two stay two, more count as one. -/
def leadingSlashes (path : Text) : Text :=
  match path with
  | '/' :: '/' :: '/' :: _ => ['/']
  | '/' :: '/' :: _ => ['/', '/']
  | '/' :: _ => ['/']
  | _ => []

/-- The path without empty and `.` segments and with `..` resolved; the empty path is `.`. -/
def normalize (path : Text) : Text :=
  let slashes := leadingSlashes path
  let segments := (Text.splitOn '/' path).foldl (enter (slashes ≠ [])) []
  let normal := slashes ++ Text.join ['/'] segments.reverse
  if normal = [] then ['.'] else normal

/-! ## Parts -/

/-- What stands before the last slash; the slashes of a root stay. -/
def directory (path : Text) : Text :=
  let head := path.take (path.length - (Text.afterLast '/' path).length)
  if head.all (· = '/') then head else Text.dropRightWhile (· = '/') head

/-- What stands after the last slash. -/
def fileName (path : Text) : Text := Text.afterLast '/' path

/-- A file name without its last extension. Points at its start do not begin an extension. -/
def stem (name : Text) : Text :=
  match Text.beforeLast? '.' name with
  | some before => if before.all (· = '.') then name else before
  | none => name

/-- The second path as seen from the first. -/
def append (path other : Text) : Text :=
  if other.head? = some '/' then other
  else if path = [] ∨ path.getLast? = some '/' then path ++ other
  else path ++ '/' :: other

/-! ## Ways between paths -/

/-- The segments of a path from the root directory on. -/
def absoluteSegments (path : Text) : List Text :=
  (Text.splitOn '/' (normalize (append ['/'] path))).filter (· ≠ [])

/-- Drops what two lists have in common at their start. -/
def dropShared : List Text → List Text → List Text × List Text
  | a :: xs, b :: ys => if a = b then dropShared xs ys else (a :: xs, b :: ys)
  | xs, ys => (xs, ys)

/-- The way from a directory to a path. -/
def relative (target base : Text) : Text :=
  let (up, down) := dropShared (absoluteSegments base) (absoluteSegments target)
  let segments := List.replicate up.length ['.', '.'] ++ down
  if segments = [] then ['.'] else Text.join ['/'] segments

open Pattern in
/-- The extension of a script module at the end of a path. -/
def moduleExtension : Pattern Unit :=
  all [lit ['.'], oneOf ['t', 'j'], lit ['s'], opt (lit ['x']), atEnd]

/-- The module specifier by which a file imports another, without extension. -/
def specifier (importer imported : Text) : Text :=
  let base := directory importer
  let way := relative imported (if base = [] then ['.'] else base)
  let way := moduleExtension.replaceAll [] way
  if way.head? = some '.' then way else "./" ++ way

end Path

end TemplateCheck
