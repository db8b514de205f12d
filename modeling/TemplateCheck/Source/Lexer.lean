import TemplateCheck.Source.Code
import TemplateCheck.Text.Word

/-!
# Lexing

`Code.ofText` cuts a text into lexical pieces. Each piece takes at least one character, so the
length of the text bounds the recursion.

A slash opens a regular expression only where an operand may stand: at the start of the code,
after a character that expects an operand, or after a word such as `return`. `Context` remembers
what that decision needs.
-/

namespace TemplateCheck

/-! ## Comments, strings and regular expressions -/

/-- Splits a text after the first end of a block comment, or at its end when there is none. -/
def blockCommentEnd : Text → Text × Text
  | [] => ([], [])
  | '*' :: '/' :: t => (['*', '/'], t)
  | c :: t => let (body, rest) := blockCommentEnd t; (c :: body, rest)

/-- Splits a text where the string ends whose opening quote stands before it: after the closing
quote, before a line feed, or at the end. A backslash guards the character after it. -/
def quotedEnd (quote : Char) : Text → Text × Text
  | [] => ([], [])
  | ['\\'] => (['\\'], [])
  | '\\' :: c :: t => let (body, rest) := quotedEnd quote t; ('\\' :: c :: body, rest)
  | c :: t =>
    if c = quote then ([c], t)
    else if c = '\n' then ([], c :: t)
    else let (body, rest) := quotedEnd quote t; (c :: body, rest)

/-- Splits a text where the regular expression ends whose opening slash stands before it: after
the flags, before a line feed, or at the end. A slash in a character class does not close it. -/
def regexEnd (inClass : Bool) : Text → Text × Text
  | [] => ([], [])
  | ['\\'] => (['\\'], [])
  | '\\' :: c :: t => let (body, rest) := regexEnd inClass t; ('\\' :: c :: body, rest)
  | c :: t =>
    if c = '\n' then ([], c :: t)
    else if c = '/' ∧ inClass = false then (c :: t.takeWhile isLetter, t.dropWhile isLetter)
    else
      let inClass := if c = '[' then true else if c = ']' then false else inClass
      let (body, rest) := regexEnd inClass t
      (c :: body, rest)

/-! ## One piece -/

/-- What was last read: its last character that is not blank, and the word it ended, if any. -/
structure Context where
  last : Option Char
  lastWord : Text

/-- Nothing was read yet. -/
def Context.start : Context := ⟨none, []⟩

/-- Characters after which an operand is expected. -/
def operandMarks : Text := "(,=:[!&|?{};+-*%<>~^"

/-- Words after which an operand is expected. -/
def operandWords : List Text :=
  ["return".toList, "typeof".toList, "case".toList, "do".toList, "else".toList, "in".toList,
    "of".toList, "delete".toList, "void".toList, "throw".toList, "yield".toList, "await".toList]

/-- Whether a slash opens a regular expression. -/
def Context.expectsOperand (context : Context) : Bool :=
  match context.last with
  | none => true
  | some c => c ∈ operandMarks || context.lastWord ∈ operandWords

/-- What a text starts with. -/
inductive Lexeme where
  | comment (text : Text)
  | quoted (text : Text)
  | regex (text : Text)
  | backtick
  | word (name : Text)
  | mark (c : Char)

/-- The first lexeme of a text that starts with `c`, and what follows it. -/
def Lexeme.read (context : Context) (c : Char) (t : Text) : Lexeme × Text :=
  if c = '/' ∧ t.head? = some '/' then
    (.comment (c :: t.takeWhile (· ≠ '\n')), t.dropWhile (· ≠ '\n'))
  else if c = '/' ∧ t.head? = some '*' then
    let (body, rest) := blockCommentEnd t.tail
    (.comment (c :: '*' :: body), rest)
  else if c = '"' ∨ c = '\'' then
    let (body, rest) := quotedEnd c t
    (.quoted (c :: body), rest)
  else if c = '`' then (.backtick, t)
  else if c = '/' ∧ context.expectsOperand then
    let (body, rest) := regexEnd false t
    (.regex (c :: body), rest)
  else if isNameChar c then (.word (c :: t.takeWhile isNameChar), t.dropWhile isNameChar)
  else (.mark c, t)

/-- The context after a character that is part of no larger piece. -/
def Context.afterMark (context : Context) (c : Char) : Context :=
  if isBlank c then context else ⟨some c, []⟩

/-- The number of braces open in a hole after one more character; `none` outside holes. -/
def bracesAfter (braces : Option Nat) (c : Char) : Option Nat :=
  if c = '{' then braces.map (· + 1) else if c = '}' then braces.map (· - 1) else braces

/-! ## All pieces -/

mutual

/-- The pieces of a text and what follows them. In a hole, where `braces` counts the open braces,
code stops before the brace that closes the hole. At most `bound` pieces are read in a row. -/
def Code.read : (bound : Nat) → Context → (braces : Option Nat) → Text → Code × Text
  | 0, _, _, t => (.done, t)
  | _ + 1, _, _, [] => (.done, [])
  | bound + 1, context, braces, c :: t =>
    match Lexeme.read context c t with
    | (.comment text, t) =>
      let (rest, t) := Code.read bound context braces t
      (.comment text rest, t)
    | (.quoted text, t) =>
      let (rest, t) := Code.read bound ⟨some c, []⟩ braces t
      (.quoted text rest, t)
    | (.regex text, t) =>
      let (rest, t) := Code.read bound ⟨some '/', []⟩ braces t
      (.regex text rest, t)
    | (.backtick, t) =>
      let (body, t) := Literal.read bound t
      let (rest, t) := Code.read bound ⟨some '`', []⟩ braces t
      (.literal body rest, t)
    | (.word name, t) =>
      let (rest, t) := Code.read bound ⟨name.getLast?, name⟩ braces t
      (.word name rest, t)
    | (.mark c, t) =>
      if c = '}' ∧ braces = some 0 then (.done, c :: t)
      else
        let (rest, t) := Code.read bound (context.afterMark c) (bracesAfter braces c) t
        (.mark c rest, t)

/-- The template literal whose opening backtick stands before a text, and what follows it. -/
def Literal.read : (bound : Nat) → Text → Literal × Text
  | 0, t => (.cut, t)
  | _ + 1, [] => (.cut, [])
  | bound + 1, c :: t =>
    if c = '`' then (.close, t)
    else if c = '\\' then
      match t with
      | [] => (.char c .cut, [])
      | d :: t =>
        let (rest, t) := Literal.read bound t
        (.escape d rest, t)
    else if c = '$' ∧ t.head? = some '{' then
      match Code.read bound .start (some 0) t.tail with
      | (code, []) => (.cutHole code, [])
      | (code, _ :: t) =>
        let (rest, t) := Literal.read bound t
        (.hole code rest, t)
    else
      let (rest, t) := Literal.read bound t
      (.char c rest, t)

end

/-- The pieces of a whole text. -/
def Code.ofText (t : Text) : Code := (Code.read t.length .start none t).1

end TemplateCheck
