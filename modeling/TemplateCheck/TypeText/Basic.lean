import TemplateCheck.Pattern
import TemplateCheck.Text.Bracket

/-!
# Type texts

Types are known by their text. This module reads the shapes that matter off a text: literals,
arrays, functions and unions.
-/

namespace TemplateCheck

/-- A type: its text, and the file that spells it when there is one. -/
structure TypeRef where
  text : Text
  file : Option Text
deriving DecidableEq, Repr

namespace TypeText

/-- The text with runs of blanks collapsed, trimmed, without semicolons at its end and without a
bar at its start. -/
def normalize (t : Text) : Text :=
  let t := Text.trim (Text.dropRightWhile (· = ';') (Text.trim (Text.collapse t)))
  match t with
  | '|' :: rest => Text.trim rest
  | _ => t

/-- Types that are fully understood by their name. -/
def primitives : List Text :=
  ["string", "number", "boolean", "bigint", "symbol", "null", "undefined", "void", "never"]

/-- Types that go with everything. -/
def topTypes : List Text := ["any", "unknown"]

/-! ## Literals -/

/-- Whether each quote in a text has a backslash right before it. -/
def guardsQuotes (quote : Char) : (previous : Option Char) → Text → Bool
  | _, [] => true
  | previous, c :: t => (c ≠ quote || previous = some '\\') && guardsQuotes quote (some c) t

/-- Whether the text is one string in quotes of one kind, up to a line feed at its end. -/
def isStringLiteral : Text → Bool
  | [] => false
  | quote :: t =>
    let t := if t.getLast? = some '\n' then t.dropLast else t
    (quote = '"' || quote = '\'') && t.getLast? = some quote &&
      guardsQuotes quote none t.dropLast

/-- Whether the text starts and ends with a backtick. -/
def isTemplateLiteral (t : Text) : Bool := t.head? = some '`' && t.getLast? = some '`'

open Pattern in
/-- A number: with a base, decimal, or with a point in front; an `n` makes it big. -/
def numberLiteral : Pattern Unit :=
  all [opt (lit ['-']),
    any [
      all [lit ['0'], oneOf "xXbBoO", span1 fun c => isDecimal c || c ∈ "abcdefABCDEF_".toList],
      all [char isDecimal, span fun c => isDecimal c || c = '_',
        opt (seq (lit ['.']) (span isDecimal)),
        opt (all [oneOf ['e', 'E'], opt (oneOf ['+', '-']), span1 isDecimal])],
      seq (lit ['.']) (span1 isDecimal)],
    opt (lit ['n']), atEnd]

/-- Whether the text is a number. -/
def isNumberLiteral (t : Text) : Bool := numberLiteral.accepts t

/-- The primitive type of a literal. -/
inductive LiteralKind where
  | string
  | number
  | bigint
  | boolean
deriving DecidableEq, Repr

/-- The name of the primitive type. -/
def LiteralKind.name : LiteralKind → Text
  | string => "string"
  | number => "number"
  | bigint => "bigint"
  | boolean => "boolean"

/-- The primitive type of a literal, none for other types. -/
def literalKind? (t : Text) : Option LiteralKind :=
  if isStringLiteral t || isTemplateLiteral t then some .string
  else if isNumberLiteral t then some (if t.getLast? = some 'n' then .bigint else .number)
  else if t = "true" ∨ t = "false" then some .boolean
  else none

/-- The primitive type of a literal, and other types as they are. -/
def widen (t : Text) : Text :=
  match literalKind? t with
  | some kind => kind.name
  | none => t

/-- Whether two literals denote one value; the kind of quotes does not matter. -/
def sameLiteral (s t : Text) : Bool :=
  if isStringLiteral s && isStringLiteral t then Text.inner s = Text.inner t else s = t

/-! ## Arrays, functions and unions -/

open Pattern in
/-- An array type written with its name and, in characters of a class, its element type. -/
def genericArray (inside : Char → Bool) : Pattern Unit :=
  all [opt (lit "Readonly"), lit "Array", blanks, lit ['<'], capture () (span inside), lit ['>'],
    atEnd]

/-- What follows the word `readonly`. -/
def afterReadonly? (t : Text) : Option Text := Text.dropStart? "readonly " t

/-- Whether the text is an array type. -/
def isArray (t : Text) : Bool :=
  Text.endsWith "[]" t || (genericArray Pattern.inLine).accepts t || (afterReadonly? t).isSome

/-- The element type of an array type, `any` where it cannot be told. -/
def elementType (t : Text) : Text :=
  let t := ((afterReadonly? t).map Text.trim).getD t
  match Text.dropEnd? "[]" t with
  | some element => Text.stripParens (Text.trim element)
  | none =>
    match (genericArray Pattern.anyChar).readStart t with
    | some found => Text.trim (found.text ())
    | none => "any"

open Pattern in
/-- Type parameters in front of a parameter list. -/
def genericParameters : Pattern Unit :=
  all [lit ['<'], span (noneOf ['>']), lit ['>'], blanks, lit ['(']]

/-- Whether the text is a function type. -/
def isFunction (t : Text) : Bool :=
  (t.head? = some '(' && Text.contains "=>" (Text.surface t)) || Text.startsWith "new " t ||
    genericParameters.accepts t

/-- The members of a union; a type that is no union has one. -/
def unionParts (t : Text) : List Text := Text.topLevelParts ['|'] t

/-- Whether the type is understood without looking up names; arrays are looked into at most
`bound` deep. -/
def isKnownUpTo : (bound : Nat) → Text → Bool
  | 0, _ => false
  | bound + 1, t =>
    if t ∈ primitives ∨ t = "object" ∨ t = "Function" ∨ (literalKind? t).isSome then true
    else if isArray t then isKnownUpTo bound (elementType t)
    else isFunction t

/-- Whether the type is understood without looking up names. -/
def isKnown (t : Text) : Bool := isKnownUpTo (t.length + 1) t

end TypeText

end TemplateCheck
