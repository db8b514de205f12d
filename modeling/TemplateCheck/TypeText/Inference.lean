import TemplateCheck.TypeText.Resolution

/-!
# Types of expressions

The type of an expression in a hole, read off its shape: literals, casts, functions, arrays, and
references to variables, fields and their members. A shape that is not understood has type `any`.
-/

namespace TemplateCheck

/-- An expression in a hole of a template. -/
structure Expression where
  text : Text
  start : Int
  stop : Int
  filePath : Text
  /-- The class whose body the template stands in. -/
  className : Option Text
deriving DecidableEq, Repr

namespace TypeText

/-! ## Shapes -/

/-- The parts of a cast. -/
inductive CastPart where
  | value
  | type
deriving DecidableEq

open Pattern in
/-- A value cast to a type; the last cast counts. -/
def cast : Pattern CastPart :=
  all [capture .value (seq (span anyChar) (char fun c => !isBlank c)), blanks1,
    either (lit "as") (lit "satisfies"), blanks1, capture .type (span1 (noneOf ['(', ')'])), atEnd]

open Pattern in
/-- The word `async` and the blanks after it, if they are there. -/
def asyncWord : Pattern Unit := opt (seq (lit "async") blanks1)

open Pattern in
/-- An arrow function up to its arrow. -/
def arrowFunction : Pattern Unit :=
  all [asyncWord,
    either (all [lit ['('], span (noneOf ['(', ')']), lit [')']]) identifier,
    blanks, opt (seq (lit [':']) (span1 (noneOf ['=']))), lit "=>"]

open Pattern in
/-- The word `function`. -/
def functionWord : Pattern Unit := all [asyncWord, lit "function", wordEdge]

open Pattern in
/-- An operator that compares. -/
def comparison : Pattern Unit :=
  any [lit "===", lit "!==", lit "==", lit "!=",
    all [char isBlank, oneOf ['<', '>'], opt (lit ['=']), char isBlank],
    all [wordEdge, lit "instanceof", wordEdge], all [wordEdge, lit "in", wordEdge]]

open Pattern in
/-- An operator that chooses between its operands. -/
def choice : Pattern Unit :=
  any [seq (lit ['?']) (unlessNext ['.', '?']), lit "??", lit "&&", lit "||"]

open Pattern in
/-- A point between the parts of a reference, optional or not. -/
def memberAccess : Pattern Unit := seq (opt (lit ['?'])) (lit ['.'])

/-! ## References -/

/-- The type of a field of a class; `infer` gives the type of an initial value. -/
def fieldType? (infer : Text → TypeRef) (file : SourceFile) (className name : Text) :
    Option TypeRef :=
  file.classes.findSome? fun declaration =>
    if declaration.name = className then
      (OrderedMap.get? declaration.fields name).bind fun field =>
        match field.type, field.initializer with
        | some type, _ => some ⟨normalize type, some file.path⟩
        | none, some value => some ⟨widen (infer value).text, some file.path⟩
        | none, none => none
    else none

/-- The type of the variable that a name denotes at an offset. -/
def variableType? (infer : Text → TypeRef) (file : SourceFile) (name : Text) (offset : Int) :
    Option TypeRef :=
  (file.variableFor? name offset).bind fun declared =>
    match declared.type, declared.initializer with
    | some type, _ => some ⟨normalize type, some file.path⟩
    | none, some value => some (infer value)
    | none, none => none

/-- The type of a member of a type. -/
def memberTypeOf? (program : Program) (filePath : Text) (type : TypeRef) (name : Text) :
    Option TypeRef :=
  if name = "length" ∧ (Text.endsWith "[]" type.text ∨ type.text = "string") then
    some ⟨"number", some filePath⟩
  else ((members program type).find? (·.name = name)).map (·.type)

/-- The type of an identifier, of `this.field`, or of a chain of members of these. -/
def referenceType? (program : Program) (infer : Text → TypeRef) (expression : Expression)
    (t : Text) : Option TypeRef := do
  let path := (memberAccess.splitAll t).map Text.trim
  if path.all Text.isIdentifier then
    let file ← program.file? expression.filePath
    match path with
    | [] => none
    | head :: rest =>
      if head = "this" then
        match rest, expression.className with
        | field :: rest, some className =>
          rest.foldlM (memberTypeOf? program expression.filePath)
            (← fieldType? infer file className field)
        | _, _ => none
      else
        rest.foldlM (memberTypeOf? program expression.filePath)
          (← variableType? infer file head expression.start)
  else none

/-! ## Expressions -/

/-- The element types of an array expression, as one text. -/
def arrayType (infer : Text → TypeRef) (t : Text) : Text :=
  let elements := Text.topLevelParts [','] (Text.trim (Text.inner t))
  match distinct (elements.map fun element => widen (infer element).text) with
  | [] => "any[]"
  | [type] => type ++ "[]"
  | types => '(' :: Text.join " | " types ++ ")[]"

/-- The cast at the end of an expression, if what it casts is balanced. -/
def castOf? (t : Text) : Option (Text × Text) :=
  (cast.readStart t).bind fun found =>
    if Text.balanced (found.text .value) then some (found.text .value, found.text .type) else none

/-- The type of a text in the place of an expression, followed at most `depth` deep. -/
def inferUpTo (program : Program) (expression : Expression) : (depth : Nat) → Text → TypeRef
  | 0, _ => ⟨"any", some expression.filePath⟩
  | depth + 1, t =>
    let here (type : Text) : TypeRef := ⟨type, some expression.filePath⟩
    if t = [] then here "any"
    else
      let t := Text.stripParens t
      match castOf? t with
      | some (value, type) =>
        if Text.trim type = "const" then inferUpTo program expression depth value
        else here (normalize type)
      | none =>
        if isStringLiteral t then here ('"' :: Text.inner t ++ ['"'])
        else if isTemplateLiteral t then here "string"
        else if isNumberLiteral t then
          here (if t.getLast? = some 'n' then "bigint" else t.filter (· ≠ '_'))
        else if t = "true" ∨ t = "false" ∨ t = "null" ∨ t = "undefined" then here t
        else if arrowFunction.accepts t || functionWord.accepts t then
          here "(...args: any[]) => any"
        else if t.head? = some '[' ∧ t.getLast? = some ']' then
          here (arrayType (inferUpTo program expression depth) t)
        else if t.head? = some '{' ∧ t.getLast? = some '}' then here "object"
        else if choice.occursIn (Text.surface t) then here "any"
        else if t.head? = some '!' ∨ comparison.occursIn (Text.surface t) then here "boolean"
        else if Text.startsWith "typeof " t then here "string"
        else
          (referenceType? program (inferUpTo program expression depth) expression t).getD
            (here "any")

/-- The type of an expression in a hole. -/
def infer (program : Program) (expression : Expression) : TypeRef :=
  inferUpTo program expression depthLimit (Text.trim expression.text)

end TypeText

end TemplateCheck
