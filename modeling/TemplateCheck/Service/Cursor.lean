import TemplateCheck.Markup.Tag
import TemplateCheck.Source.File

/-!
# What is under the cursor

The template whose text contains an offset, and the component tag around a place in that text.
-/

namespace TemplateCheck

/-- Whether an offset lies in the literal of a template, its closing backtick included. -/
def TaggedTemplate.covers (template : TaggedTemplate) (offset : Int) : Bool :=
  (template.bodyStart : Int) ≤ offset && offset < (template.stop : Int)

/-- Whether an offset lies strictly inside a hole. -/
def Span.holds (span : Span) (offset : Int) : Bool :=
  (span.start : Int) < offset && offset < (span.stop : Int)

/-- The innermost marked template whose text contains an offset; code in a hole is no text. -/
def SourceFile.templateAt? (file : SourceFile) (offset : Int) : Option TaggedTemplate :=
  let innermost := file.templates.foldl
    (fun found template =>
      if template.covers offset &&
          found.all (fun (best : TaggedTemplate) => best.start < template.start)
      then some template else found)
    none
  innermost.filter fun template => !template.spans.any (·.holds offset)

/-- A component tag near a cursor. -/
structure CursorTag where
  name : Text
  /-- Whether the cursor stands in the tag. -/
  inside : Bool
deriving DecidableEq, Repr

open Pattern in
/-- The start of a component tag. -/
def componentTagStart : Pattern Unit :=
  all [lit ['<'], blanks,
    capture () (seq (char Char.isUpper) (span Char.isAlphanum))]

/-- The component tag that starts with the last `<` before a cursor in a template text. The cursor
stands in the tag up to the first `>` after that. -/
def componentAtCursor? (text : Text) (cursor : Int) : Option CursorTag :=
  if cursor < 0 ∨ (text.length : Int) < cursor then none
  else
    (Text.findLast? ['<'] (text.take cursor.toNat)).bind fun opening =>
      let fromOpening := text.drop opening
      let close := (Text.find? ['>'] fromOpening).map (opening + ·)
      let fragment :=
        match close with
        | some close => Text.slice text opening (close + 1)
        | none => fromOpening
      (componentTagStart.readStart fragment).map fun found =>
        ⟨found.text (), close.all fun (close : Nat) => cursor ≤ (close : Int)⟩

end TemplateCheck
