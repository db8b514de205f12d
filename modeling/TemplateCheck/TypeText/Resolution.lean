import TemplateCheck.Program
import TemplateCheck.TypeText.Object

/-!
# Resolving types in a program

A named type is looked up in its own file, then behind the import of its name, then in the files of
the program in order. The members of a type follow such names, intersections and the wrappers
`Partial`, `Readonly` and `Required`, down to a fixed depth.
-/

namespace TemplateCheck

namespace TypeText

/-- How deep types are followed. -/
def depthLimit : Nat := 9

open Pattern in
/-- A named type with or without type arguments. -/
def namedType : Pattern Unit :=
  all [capture () dottedName, blanks, opt (all [lit ['<'], span anyChar, lit ['>']]), atEnd]

/-- The declaration of a name in a source file, as a type spelled there. -/
def declared? (file : SourceFile) (name : Text) : Option TypeRef :=
  (OrderedMap.get? file.typeDeclarations name).map fun text => ⟨text, some file.path⟩

/-- The declaration of a dotted name behind the import of its head. -/
def imported? (program : Program) (file : SourceFile) (dotted : Text) : Option TypeRef := do
  let binding ← file.importFor? (Text.upTo '.' dotted)
  let target ← program.module? file.path binding.source
  declared? target (if '.' ∈ dotted then Text.afterLast '.' dotted else binding.exportedName)

/-- The declaration that a named type stands for. -/
def resolve? (program : Program) (type : TypeRef) : Option TypeRef := do
  let found ← namedType.readStart type.text
  if type.text ∈ primitives ∨ type.text ∈ topTypes then none
  else
    let dotted := found.text ()
    let name := Text.afterLast '.' dotted
    if name = "Array" ∨ name = "ReadonlyArray" then none
    else
      let file := type.file.bind fun path => if path = [] then none else program.file? path
      let near := file.bind fun file => (declared? file name).or (imported? program file dotted)
      near.or (program.sourceFiles.findSome? (declared? · name))

/-! ## Members -/

/-- What a wrapper does to the members of the type it wraps. -/
structure Wrapper where
  name : Text
  apply : Member → Member

/-- The wrappers that are followed. -/
def wrappers : List Wrapper :=
  [⟨"Partial", fun member => { member with optional := true }⟩,
   ⟨"Readonly", id⟩,
   ⟨"Required", fun member => { member with optional := false }⟩]

/-- The type that a wrapper is applied to. -/
def wrapped? (wrapper : Wrapper) (t : Text) : Option Text := do
  let rest ← Text.dropStart? wrapper.name t
  let rest ← Text.dropStart? ['<'] (Text.trimStart rest)
  let inside ← Text.dropEnd? ['>'] rest
  return Text.trim inside

/-- The members of a type, followed at most `depth` deep. -/
def membersUpTo (program : Program) : (depth : Nat) → TypeRef → List Member
  | 0, _ => []
  | depth + 1, type =>
    if type.text = [] then []
    else
      let t := Text.stripParens type.text
      match Text.topLevelParts ['&'] t with
      | first :: second :: rest =>
        Member.merge ((first :: second :: rest).flatMap fun part =>
          membersUpTo program depth ⟨part, type.file⟩)
      | _ =>
        if t.head? = some '{' then objectMembers type.file t
        else
          match wrappers.findSome? fun wrapper => (wrapped? wrapper t).map (wrapper, ·) with
          | some (wrapper, inside) =>
            (membersUpTo program depth ⟨inside, type.file⟩).map wrapper.apply
          | none =>
            match resolve? program ⟨t, type.file⟩ with
            | some target => membersUpTo program depth ⟨normalize target.text, target.file⟩
            | none => []

/-- The members of an object type, an interface, an alias or an intersection, in order. -/
def members (program : Program) (type : TypeRef) : List Member :=
  membersUpTo program depthLimit ⟨normalize type.text, type.file⟩

end TypeText

end TemplateCheck
