import TemplateCheck.Pattern
import TemplateCheck.Text.Position

/-!
# Imports

An import statement binds a default name, a namespace, a list of names, or a default name together
with one of the others. Statements are looked for in the source text, since the module specifier is
a string, and count only where the mask shows that their first letter is code.
-/

namespace TemplateCheck

/-- How a name is bound by an import statement. -/
inductive ImportKind where
  /-- The default export. -/
  | default
  /-- An export by name. -/
  | named
  /-- All exports, as a namespace. -/
  | star
  /-- A type, which leaves no trace at run time. -/
  | type
deriving DecidableEq, Repr

/-- One name bound by an import statement. -/
structure Import where
  /-- The local name. -/
  name : Text
  /-- The module specifier. -/
  source : Text
  filePath : Text
  /-- One-based line of the statement. -/
  line : Int
  kind : ImportKind
  /-- The exported name, where it is renamed. -/
  renamedFrom : Option Text
  /-- Where the statement starts. -/
  start : Nat
  /-- Where the statement ends. -/
  stop : Nat
deriving DecidableEq, Repr

/-- The name that the module exports. -/
def Import.exportedName (binding : Import) : Text :=
  match binding.renamedFrom with
  | none | some [] => binding.name
  | some name => name

namespace Import

/-! ## The statement -/

/-- The parts of an import statement. -/
inductive Part where
  | typeOnly
  | defaultName
  | nameList
  | starName
  | source
deriving DecidableEq

open Pattern in
/-- A module specifier between two quotes of one kind. -/
def specifier (quote : Char) : Pattern Part :=
  all [lit [quote], capture .source (span1 (noneOf ['"', '\'', '\n'])), lit [quote]]

open Pattern in
/-- An import statement with at least the word `from` and a specifier. -/
def statement : Pattern Part :=
  all [wordEdge, lit "import", blanks1, opt (capture .typeOnly (seq (lit "type") blanks1)),
    opt (all [capture .defaultName identifier, blanks, opt (seq (lit [',']) blanks)]),
    opt (either
      (all [lit ['{'], capture .nameList (span (noneOf ['{', '}'])), lit ['}'], blanks])
      (all [lit ['*'], blanks, lit "as", blanks1, capture .starName identifier, blanks])),
    lit "from", blanks, either (specifier '"') (specifier '\''), blanks,
    opt (lit [';'])]

/-! ## The list of names -/

open Pattern in
/-- A comment inside a list of names. -/
def listComment : Pattern Unit :=
  either (all [lit "/*", spanLazy inLine, lit "*/"]) (all [lit "//", span inLine])

open Pattern in
/-- The word between an exported name and its local name. -/
def asWord : Pattern Unit := all [blanks1, lit "as", blanks1]

/-- A name in the list of an import statement. -/
structure ListedName where
  name : Text
  renamedFrom : Option Text
  isType : Bool

/-- Reads one entry of the list; an entry of blanks and comments binds nothing. -/
def ListedName.ofEntry? (entry : Text) : Option ListedName :=
  let entry := Text.trim (listComment.replaceAll [] entry)
  if entry = [] then none
  else
    let (isType, entry) :=
      match Text.dropStart? "type " entry with
      | some rest => (true, Text.trim rest)
      | none => (false, entry)
    match asWord.splitAll entry with
    | [exported, name] => some ⟨Text.trim name, some (Text.trim exported), isType⟩
    | _ => some ⟨entry, none, isType⟩

/-- The names of a list, in order. -/
def listedNames (list : Text) : List ListedName :=
  (Text.splitOn ',' list).filterMap ListedName.ofEntry?

/-! ## The bindings -/

/-- The bindings of one statement: the default name, then the namespace, then the listed names. -/
def ofStatement (filePath : Text) (lineStarts : List Nat) (found : Pattern.Match Part) :
    List Import :=
  let typeOnly := (found.text? .typeOnly).isSome
  let bind (name : Text) (kind : ImportKind) (renamedFrom : Option Text) : Import :=
    { name := name, source := found.text .source, filePath := filePath,
      line := (Text.positionIn lineStarts found.start).line + 1, kind := kind,
      renamedFrom := renamedFrom, start := found.start, stop := found.stop }
  let defaults := (found.text? .defaultName).toList.map fun name =>
    bind name (if typeOnly then .type else .default) none
  let stars := (found.text? .starName).toList.map fun name => bind name .star none
  let listed := (listedNames (found.text .nameList)).map fun entry =>
    bind entry.name (if typeOnly || entry.isType then .type else .named) entry.renamedFrom
  defaults ++ stars ++ listed

/-- The bindings of all import statements of a source text whose mask is `mask`. -/
def readAll (filePath text mask : Text) : List Import :=
  let lineStarts := Text.lineStarts text
  (statement.readAll text).flatMap fun found =>
    if mask[found.start]? = some 'i' then ofStatement filePath lineStarts found else []

end Import

end TemplateCheck
