import TemplateCheck.Source.Variable
import TemplateCheck.Text.Bracket

/-!
# Classes

A class declaration with its decorators, its base class and the type arguments of the base, the
range of its body and its fields. All of it is found in the mask of the source; type arguments and
the types and values of fields are then taken from the source text.
-/

namespace TemplateCheck

/-- A class declaration. -/
structure ClassDeclaration where
  name : Text
  nameStart : Nat
  /-- Where the declaration starts, decorators and modifiers included. -/
  start : Nat
  base : Option Text
  typeArguments : List Text
  decorators : List Text
  /-- Offset of the brace that opens the body. -/
  bodyStart : Nat
  /-- Offset past the brace that closes the body. -/
  bodyStop : Nat
  fields : OrderedMap Text Variable
deriving DecidableEq, Repr

namespace ClassDeclaration

/-- Whether an offset lies in the body. -/
def contains (declaration : ClassDeclaration) (offset : Int) : Bool :=
  (declaration.bodyStart : Int) ≤ offset && offset < (declaration.bodyStop : Int)

/-! ## The header -/

/-- The parts of a class header. -/
inductive Part where
  | decorators
  | name
  | base
deriving DecidableEq

open Pattern in
/-- A decorator with at most one level of parentheses in its arguments. -/
def decorator : Pattern Part :=
  all [lit ['@'], dottedName,
    opt (all [blanks, lit ['('],
      loop (either (char (noneOf ['(', ')']))
        (all [lit ['('], span (noneOf ['(', ')']), lit [')']])),
      lit [')']]),
    blanks]

open Pattern in
/-- A modifier word and the blanks after it. -/
def modifier (word : Text) : Pattern Part := opt (seq (lit word) blanks1)

open Pattern in
/-- A class header up to the name of the class. -/
def header : Pattern Part :=
  all [capture .decorators (loop decorator), modifier "export", modifier "default",
    modifier "declare", modifier "abstract", wordEdge, lit "class", blanks1,
    capture .name identifier]

open Pattern in
/-- The base class, possibly a member of a namespace. -/
def heritage : Pattern Part :=
  all [lit "extends", blanks1,
    capture .base (seq identifier (loop (all [blanks, lit ['.'], blanks, identifier]))), blanks]

open Pattern in
/-- The name of a decorator. -/
def decoratorName : Pattern Unit := seq (lit ['@']) (capture () dottedName)

/-! ## Angle brackets and the body -/

/-- The offset past the bracket that brings the depth back to zero, and the ranges between the
commas at depth one; `start` is where the current range starts. -/
def anglesFrom (previous : Option Char) (depth : Int) (offset start : Nat) :
    Text → Option (Nat × List (Nat × Nat))
  | [] => none
  | c :: t =>
    let step := Text.nesting previous c
    if step = -1 ∧ depth = 1 then some (offset + 1, [(start, offset)])
    else if c = ',' ∧ depth = 1 then
      (anglesFrom (some c) depth (offset + 1) (offset + 1) t).map fun (stop, ranges) =>
        (stop, (start, offset) :: ranges)
    else anglesFrom (some c) (depth + step) (offset + 1) start t

/-- The offset past the bracket that closes the `<` at `offset`, and the ranges of its arguments
that are not blank. An unclosed bracket reaches to the end of the code and has no arguments. -/
def angles (code : Text) (offset : Nat) : Nat × List (Nat × Nat) :=
  match anglesFrom none 0 offset (offset + 1) (code.drop offset) with
  | some (stop, ranges) =>
    (stop, ranges.filter fun range => !Text.allBlank (Text.slice code range.1 range.2))
  | none => (code.length, [])

/-- The offset of the brace that opens a class body, past an `implements` clause. A semicolon or a
closing parenthesis outside angle brackets means that there is no body. -/
def bodyStartFrom (previous : Option Char) (depth : Int) (offset : Nat) : Text → Option Nat
  | [] => none
  | c :: t =>
    if c = '<' then bodyStartFrom (some c) (depth + 1) (offset + 1) t
    else if c = '>' ∧ previous ≠ some '=' then bodyStartFrom (some c) (depth - 1) (offset + 1) t
    else if c = '{' ∧ depth ≤ 0 then some offset
    else if (c = ';' ∨ c = ')') ∧ depth ≤ 0 then none
    else bodyStartFrom (some c) depth (offset + 1) t

/-- The offset past the brace that brings the count of open ones back to zero, the end of the code
when there is none. -/
def braceStopFrom (depth : Int) (offset : Nat) : Text → Nat
  | [] => offset
  | c :: t =>
    if c = '{' then braceStopFrom (depth + 1) (offset + 1) t
    else if c = '}' then
      if depth = 1 then offset + 1 else braceStopFrom (depth - 1) (offset + 1) t
    else braceStopFrom depth (offset + 1) t

/-- The offset past the brace that closes the one at `offset`. -/
def braceStop (code : Text) (offset : Nat) : Nat := braceStopFrom 0 offset (code.drop offset)

/-! ## Fields -/

/-- The ranges of the statements at depth zero, split at semicolons and line feeds. A brace that
closes a block ends a statement without reporting it. `start` is where the current statement
starts, and `ink` says that something other than blanks was read of it. -/
def statementsFrom (depth : Int) (start offset : Nat) (ink : Bool) : Text → List (Nat × Nat)
  | [] => if depth = 0 ∧ ink then [(start, offset)] else []
  | c :: t =>
    if c ∈ ['{', '(', '['] then statementsFrom (depth + 1) start (offset + 1) true t
    else if c ∈ ['}', ')', ']'] then
      if depth = 1 ∧ c = '}' then statementsFrom 0 (offset + 1) (offset + 1) false t
      else statementsFrom (depth - 1) start (offset + 1) true t
    else if (c = ';' ∨ c = '\n') ∧ depth = 0 then
      let later := statementsFrom depth (offset + 1) (offset + 1) false t
      if ink then (start, offset) :: later else later
    else statementsFrom depth start (offset + 1) (ink || !isBlank c) t

/-- The ranges of the statements in `code` from `start` to `stop`. -/
def statements (code : Text) (start stop : Nat) : List (Nat × Nat) :=
  statementsFrom 0 start start false (Text.slice code start stop)

/-- Words that may stand before the name of a field. -/
def fieldModifiers : List Text :=
  ["public".toList, "private".toList, "protected".toList, "readonly".toList, "static".toList,
    "declare".toList, "override".toList, "accessor".toList]

open Pattern in
/-- A field declaration that fills a whole statement. -/
def field : Pattern Variable.Part :=
  all [blanks, loop (seq (any (fieldModifiers.map lit)) blanks1), capture .name identifier, blanks,
    opt (seq (oneOf ['?', '!']) blanks),
    opt (all [lit [':'], blanks, capture .type (spanLazy1 (noneOf ['=', ';'])), blanks]),
    opt (all [lit ['='], blanks, capture .initializer (spanLazy1 anyChar), blanks]),
    opt (seq (lit [';']) blanks), atEnd]

/-- The field declared by the statement at a range. A statement with a parenthesis before its first
equals sign is a method. -/
def fieldAt? (text mask : Text) (range : Nat × Nat) : Option Variable := do
  let statement := Text.slice mask range.1 range.2
  if '(' ∈ Text.upTo '=' statement then none
  else
    let found ← field.readStart statement
    let read := (field.readStart (Text.slice text range.1 range.2)).getD found
    return {
      name := found.text .name
      start := range.1 + found.startOf .name
      type := Variable.clean (read.text? .type)
      initializer := Variable.clean (read.text? .initializer) }

/-- The fields of a class body by name; of two fields with one name the later one counts. -/
def fieldsIn (text mask : Text) (bodyStart bodyStop : Nat) : OrderedMap Text Variable :=
  ((statements mask (bodyStart + 1) (bodyStop - 1)).filterMap (fieldAt? text mask)).foldl
    (fun fields field => OrderedMap.put fields field.name field) []

/-! ## Declarations -/

/-- The offset of the first character from `offset` on that is not blank. -/
def skipBlanks (code : Text) (offset : Nat) : Nat := offset + Text.indent (code.drop offset)

/-- The base class and its type arguments, and where the header goes on after them. -/
def readBase (text mask : Text) (offset : Nat) : Option Text × List Text × Nat :=
  match heritage.readFrom mask offset with
  | none => (none, [], offset)
  | some found =>
    let base := some (Text.dropBlanks (found.text .base))
    if mask[found.stop]? = some '<' then
      let (stop, ranges) := angles mask found.stop
      (base, ranges.map fun range => Text.trim (Text.slice text range.1 range.2), stop)
    else (base, [], found.stop)

/-- The declaration whose header was found in the mask, if it has a body. -/
def ofHeader? (text mask : Text) (found : Pattern.Match Part) : Option ClassDeclaration :=
  let offset := skipBlanks mask found.stop
  let offset :=
    if mask[offset]? = some '<' then skipBlanks mask (angles mask offset).1 else offset
  let (base, typeArguments, offset) := readBase text mask offset
  (bodyStartFrom (mask[offset - 1]?) 0 offset (mask.drop offset)).map fun bodyStart =>
    let bodyStop := braceStop mask bodyStart
    { name := found.text .name, nameStart := found.startOf .name, start := found.start,
      base := base, typeArguments := typeArguments,
      decorators := (decoratorName.readAll (found.text .decorators)).map (·.text ()),
      bodyStart := bodyStart, bodyStop := bodyStop,
      fields := fieldsIn text mask bodyStart bodyStop }

/-- The class declarations of a source text, in the order of their headers. -/
def readAll (text mask : Text) : List ClassDeclaration :=
  (header.readAll mask).filterMap (ofHeader? text mask)

end ClassDeclaration

end TemplateCheck
