import TemplateCheck.Source.Code
import TemplateCheck.Text.CodePoint
import TemplateCheck.Text.Word

/-!
# Marked templates

A template literal is marked when the name right before its backtick is the marker. `templates`
lists the marked literals of a piece of code in the order of their opening backticks, nested ones
included, each with its holes as spans of the source.
-/

namespace TemplateCheck

/-- A hole of a template literal. -/
structure Span where
  /-- Offset of the dollar sign. -/
  start : Nat
  /-- Offset past the closing brace, or the end of a text that cuts the hole. -/
  stop : Nat
  /-- The code in the hole, trimmed. -/
  expression : Text
  expressionStart : Nat
deriving DecidableEq, Repr

/-- A template literal marked by its tag. -/
structure TaggedTemplate where
  /-- Place in the list of marked templates of the file. -/
  index : Nat
  tag : Text
  tagStart : Nat
  /-- Offset of the opening backtick. -/
  start : Nat
  /-- Offset past the closing backtick, or the end of the text. -/
  stop : Nat
  spans : List Span
  /-- Index of the innermost marked template around this one. -/
  parent : Option Nat
  /-- The source between the backticks. -/
  body : Text
deriving DecidableEq, Repr

namespace TaggedTemplate

/-- Offset of the first character after the opening backtick. -/
def bodyStart (template : TaggedTemplate) : Nat := template.start + 1

/-- Whether another marked template encloses this one. -/
def isNested (template : TaggedTemplate) : Bool := template.parent.isSome

/-- The holes as regions of the body. -/
def placeholders (template : TaggedTemplate) : List (Int × Int) :=
  template.spans.map fun span =>
    ((span.start : Int) - template.bodyStart, (span.stop : Int) - template.bodyStart)

end TaggedTemplate

/-! ## The tag before a backtick -/

/-- A name before a backtick and where it starts. -/
structure Marker where
  name : Text
  start : Nat

/-- The tag of a backtick at `offset`, given the text before it backwards. Spaces and tabs may
stand between them. A name after a point is a member and no tag: the empty tag then stands where
the name ends. -/
def tagBefore (before : Text) (offset : Nat) : Marker :=
  let gap := before.takeWhile fun c => c = ' ' || c = '\t'
  let before := before.drop gap.length
  let name := before.takeWhile isNameChar
  let stop := offset - gap.length
  if name = [] ∨ (before.drop name.length).head? = some '.' then ⟨[], stop⟩
  else ⟨name.reverse, stop - name.length⟩

/-! ## Holes -/

/-- The hole at `start` that holds the given code and ends at `stop`. -/
def Span.ofCode (start stop : Nat) (code : Text) : Span where
  start := start
  stop := stop
  expression := Text.trim code
  expressionStart := start + 2 + Text.indent code

/-- The holes of a template literal whose next character stands at `offset`. -/
def Literal.spans : (offset : Nat) → Literal → List Span
  | _, .cut => []
  | _, .close => []
  | offset, .char _ rest => rest.spans (offset + 1)
  | offset, .escape _ rest => rest.spans (offset + 2)
  | offset, .hole code rest =>
    let source := code.source
    let stop := offset + 2 + source.length + 1
    .ofCode offset stop source :: rest.spans stop
  | offset, .cutHole code =>
    let source := code.source
    [.ofCode offset (offset + 2 + source.length) source]

/-! ## Collecting -/

mutual

/-- The marked templates in code at `offset`, where `before` is the text before it backwards,
`parent` the innermost marked template around it and `next` the index of the first one found. -/
def Code.templatesFrom (marker : WideText) :
    (before : Text) → (offset : Nat) → (parent : Option Nat) → (next : Nat) → Code →
      List TaggedTemplate
  | _, _, _, _, .done => []
  | before, offset, parent, next, .mark c rest =>
    rest.templatesFrom marker (c :: before) (offset + 1) parent next
  | before, offset, parent, next, .word name rest =>
    rest.templatesFrom marker (name.reverse ++ before) (offset + name.length) parent next
  | before, offset, parent, next, .comment text rest =>
    rest.templatesFrom marker (text.reverse ++ before) (offset + text.length) parent next
  | before, offset, parent, next, .quoted text rest =>
    rest.templatesFrom marker (text.reverse ++ before) (offset + text.length) parent next
  | before, offset, parent, next, .regex text rest =>
    rest.templatesFrom marker (text.reverse ++ before) (offset + text.length) parent next
  | before, offset, parent, next, .literal body rest =>
    let source := body.source
    let stop := offset + 1 + source.length
    let tag := tagBefore before offset
    let found :=
      if WideText.ofText tag.name = marker then
        { index := next, tag := tag.name, tagStart := tag.start, start := offset, stop := stop,
          spans := body.spans (offset + 1), parent := parent, body := body.body } ::
            body.templatesFrom marker ('`' :: before) (offset + 1) (some next) (next + 1)
      else body.templatesFrom marker ('`' :: before) (offset + 1) parent next
    found ++
      rest.templatesFrom marker (source.reverseAux ('`' :: before)) stop parent
        (next + found.length)

/-- The marked templates in the holes of a template literal. -/
def Literal.templatesFrom (marker : WideText) :
    (before : Text) → (offset : Nat) → (parent : Option Nat) → (next : Nat) → Literal →
      List TaggedTemplate
  | _, _, _, _, .cut => []
  | _, _, _, _, .close => []
  | before, offset, parent, next, .char c rest =>
    rest.templatesFrom marker (c :: before) (offset + 1) parent next
  | before, offset, parent, next, .escape c rest =>
    rest.templatesFrom marker (c :: '\\' :: before) (offset + 2) parent next
  | before, offset, parent, next, .hole code rest =>
    let before := '{' :: '$' :: before
    let found := code.templatesFrom marker before (offset + 2) parent next
    let source := code.source
    found ++
      rest.templatesFrom marker ('}' :: source.reverseAux before)
        (offset + 2 + source.length + 1) parent (next + found.length)
  | before, offset, parent, next, .cutHole code =>
    code.templatesFrom marker ('{' :: '$' :: before) (offset + 2) parent next

end

/-- The marked templates of a source text, in the order of their opening backticks. -/
def Code.templates (marker : WideText) (code : Code) : List TaggedTemplate :=
  code.templatesFrom marker [] 0 none 0

end TemplateCheck
