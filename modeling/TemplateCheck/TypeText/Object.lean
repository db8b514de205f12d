import TemplateCheck.TypeText.Basic

/-!
# Object types

The members of an object type literal, in order. Members are separated by semicolons, commas or
line feeds outside brackets; a member may go on after a union or intersection operator, a colon or
an arrow.
-/

namespace TemplateCheck

/-- A member of an object type. -/
structure Member where
  name : Text
  type : TypeRef
  optional : Bool
deriving DecidableEq, Repr

namespace Member

/-- Adds a member at the end; an earlier member of its name is dropped. -/
def insert (members : List Member) (member : Member) : List Member :=
  members.filter (·.name ≠ member.name) ++ [member]

/-- Members one after the other, of which the last with a name counts. -/
def merge (members : List Member) : List Member := members.foldl insert []

end Member

namespace TypeText

/-! ## Comments -/

open Pattern in
/-- A block comment. -/
def blockComment : Pattern Unit := all [lit "/*", spanLazy anyChar, lit "*/"]

open Pattern in
/-- A line comment at the start or after a blank. -/
def lineComment : Pattern Unit :=
  all [either (look fun previous _ => previous = none) (char isBlank), lit "//", span inLine]

/-- The text with its comments replaced by spaces. -/
def dropComments (t : Text) : Text := lineComment.replaceAll [' '] (blockComment.replaceAll [' '] t)

/-! ## Entries -/

/-- The parts between the separators outside brackets; `current` is read backwards. -/
def entriesFrom (depth : Int) (current : Text) : Text → List Text
  | [] => [current.reverse]
  | c :: t =>
    let depth := depth + Text.nesting current.head? c
    if c ∈ [';', ',', '\n'] ∧ depth = 0 then current.reverse :: entriesFrom depth [] t
    else entriesFrom depth (c :: current) t

/-- Whether an entry goes on with the next one. -/
def goesOn (entry next : Text) : Bool :=
  next.head?.any (· ∈ ['|', '&']) || entry.getLast?.any (· ∈ ['|', '&', ':']) ||
    Text.endsWith "=>" entry

/-- Joins the entries that go on; `entry` is the current one. -/
def joinEntries (entry : Text) : List Text → List Text
  | [] => [entry]
  | next :: rest =>
    if goesOn entry next then joinEntries (entry ++ ' ' :: next) rest
    else entry :: joinEntries next rest

/-- The texts of the members in the body of an object type. Index signatures are left out. -/
def memberEntries (body : Text) : List Text :=
  let entries := ((entriesFrom 0 [] body).map Text.trim).filter (· ≠ [])
  let joined :=
    match entries with
    | [] => []
    | entry :: rest => joinEntries entry rest
  joined.filter fun entry => entry.head? ≠ some '['

/-! ## Members -/

/-- The parts of a member before its type. -/
inductive MemberPart where
  | name
  | optional
deriving DecidableEq

open Pattern in
/-- A name in quotes of one kind. -/
def quotedName (quote : Char) : Pattern MemberPart :=
  all [lit [quote], capture .name (spanLazy1 inLine), lit [quote]]

open Pattern in
/-- A member up to its type. -/
def memberHead : Pattern MemberPart :=
  all [opt (seq (lit "readonly") blanks1),
    any [quotedName '"', quotedName '\'', capture .name identifier],
    blanks, opt (capture .optional (lit ['?'])), blanks]

/-- The type of a member, given what follows its name: a method or a property. -/
def memberType? (rest : Text) : Option Text :=
  match rest with
  | '(' :: _ =>
    (Text.parenClose? rest).map fun close =>
      let result := Text.trim (rest.drop (close + 1))
      let result :=
        match result with
        | ':' :: result => Text.trim result
        | _ => "void"
      rest.take (close + 1) ++ " => " ++ result
  | ':' :: type => some (normalize type)
  | _ => none

/-- The member that an entry declares. -/
def memberOf? (file : Option Text) (entry : Text) : Option Member := do
  let found ← memberHead.readStart entry
  let type ← memberType? (Text.trim (entry.drop found.stop))
  return {
    name := found.text .name
    type := ⟨type, file⟩
    optional := (found.text? .optional).isSome || "undefined".toList ∈ unionParts type }

/-- The members of an object type literal spelled in a file. -/
def objectMembers (file : Option Text) (t : Text) : List Member :=
  let body := (Text.beforeLast? '}' t).getD t
  Member.merge ((memberEntries (dropComments body.tail)).filterMap (memberOf? file))

end TypeText

end TemplateCheck
