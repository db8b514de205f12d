import TemplateCheck.Source.Template

/-!
# Scripts

A script is source code as an author means it: plain characters, groups in braces, strings and
template literals, whose holes hold scripts again, to any depth.

`print` writes a script down. `fits` says that no character before a literal makes it read another
tag than its own. `templates` says, from the script alone, which literals a marker marks, with their
places in the written text; a lexer should find just these.
-/

namespace TemplateCheck

/-! ## Parts -/

/-- Whether the character is code on its own: no quote, backtick, slash, brace or backslash. -/
def isPlain (c : Char) : Bool :=
  c ≠ '"' && c ≠ '\'' && c ≠ '`' && c ≠ '/' && c ≠ '{' && c ≠ '}' && c ≠ '\\'

namespace Script

/-- A string on one line without escapes. -/
structure Quoted where
  quote : Char
  inside : Text
  isQuote : quote = '"' ∨ quote = '\''
  fits : ∀ c ∈ inside, c ≠ quote ∧ c ≠ '\n' ∧ c ≠ '\\'

/-- A string as it is written. -/
def Quoted.print (string : Quoted) : Text := string.quote :: (string.inside ++ [string.quote])

/-- The tag of a literal: a name, and the spaces and tabs between it and the backtick. -/
structure Tag where
  name : Text
  gap : Text
  name_ne_nil : name ≠ []
  name_fits : ∀ c ∈ name, isNameChar c = true
  gap_fits : ∀ c ∈ gap, c = ' ' ∨ c = '\t'

/-- A tag as it is written, nothing when there is none. -/
def printTag : Option Tag → Text
  | some tag => tag.name ++ tag.gap
  | none => []

/-- Literal text: it closes no literal, escapes nothing and opens no hole. -/
structure Chars where
  text : Text
  fits : ∀ c ∈ text, c ≠ '`' ∧ c ≠ '\\'
  noHole : Text.contains r"${" text = false

end Script

/-! ## Scripts and literals -/

mutual

/-- Source code with template literals. -/
inductive Script where
  | done
  | plain (c : Char) (fits : isPlain c = true) (rest : Script)
  /-- Code between braces. -/
  | group (inside rest : Script)
  | quoted (string : Script.Quoted) (rest : Script)
  | literal (tag : Option Script.Tag) (body : Script.Body) (rest : Script)

/-- What stands between the backticks of a literal: text, and holes with text before each. -/
inductive Script.Body where
  | last (text : Script.Chars)
  | hole (text : Script.Chars) (code : Script) (rest : Script.Body)

end

mutual

/-- A script as it is written. -/
def Script.print : Script → Text
  | .done => []
  | .plain c _ rest => c :: rest.print
  | .group inside rest => '{' :: (inside.print ++ '}' :: rest.print)
  | .quoted string rest => string.print ++ rest.print
  | .literal tag body rest => Script.printTag tag ++ '`' :: (body.print ++ '`' :: rest.print)

/-- The inside of a literal as it is written. -/
def Script.Body.print : Script.Body → Text
  | .last text => text.text
  | .hole text code rest => text.text ++ '$' :: '{' :: (code.print ++ '}' :: rest.print)

end

namespace Script

/-! ## What may stand before a literal -/

/-- Whether a literal may follow a text, given backwards: before a tag there stands neither a
character of a name nor a point, and the last character before an untagged literal that is not blank
belongs to no name. -/
def tagFits (before : Text) : Option Tag → Bool
  | some _ => before.head?.all fun c => !isNameChar c && c ≠ '.'
  | none => (before.dropWhile isBlank).head?.all fun c => !isNameChar c

end Script

mutual

/-- Whether each literal of a script fits to the text before it, where `before` is the text before
the script backwards. -/
def Script.fits : (before : Text) → Script → Bool
  | _, .done => true
  | before, .plain c _ rest => rest.fits (c :: before)
  | before, .group inside rest =>
    inside.fits ('{' :: before) && rest.fits ('}' :: (inside.print.reverse ++ '{' :: before))
  | before, .quoted string rest => rest.fits (string.print.reverse ++ before)
  | before, .literal tag body rest =>
    let opened := '`' :: ((Script.printTag tag).reverse ++ before)
    Script.tagFits before tag && body.fits opened &&
      rest.fits ('`' :: (body.print.reverse ++ opened))

/-- Whether each literal in the holes of a literal fits to the text before it. -/
def Script.Body.fits : (before : Text) → Script.Body → Bool
  | _, .last _ => true
  | before, .hole text code rest =>
    let opened := '{' :: '$' :: (text.text.reverse ++ before)
    code.fits opened && rest.fits ('}' :: (code.print.reverse ++ opened))

end

/-! ## The marked literals -/

/-- The holes of a literal whose inside starts at `offset`. -/
def Script.Body.spans : (offset : Nat) → Script.Body → List Span
  | _, .last _ => []
  | offset, .hole text code rest =>
    let start := offset + text.text.length
    let stop := start + 2 + code.print.length + 1
    ⟨start, stop, Text.trim code.print, start + 2 + Text.indent code.print⟩ :: rest.spans stop

mutual

/-- The literals of a script at `offset` that are tagged with the marker, in the order of their
backticks. `parent` is the innermost such literal around the script, and `next` the index of the
first one found. -/
def Script.templates (marker : Text) :
    (offset : Nat) → (parent : Option Nat) → (next : Nat) → Script → List TaggedTemplate
  | _, _, _, .done => []
  | offset, parent, next, .plain _ _ rest => rest.templates marker (offset + 1) parent next
  | offset, parent, next, .group inside rest =>
    let found := inside.templates marker (offset + 1) parent next
    found ++
      rest.templates marker (offset + 1 + inside.print.length + 1) parent (next + found.length)
  | offset, parent, next, .quoted string rest =>
    rest.templates marker (offset + string.print.length) parent next
  | offset, parent, next, .literal tag body rest =>
    let start := offset + (Script.printTag tag).length
    let stop := start + 1 + body.print.length + 1
    let found :=
      if tag.map (·.name) = some marker then
        { index := next, tag := marker, tagStart := offset, start := start, stop := stop,
          spans := body.spans (start + 1), parent := parent, body := body.print } ::
            body.templates marker (start + 1) (some next) (next + 1)
      else body.templates marker (start + 1) parent next
    found ++ rest.templates marker stop parent (next + found.length)

/-- The marked literals in the holes of a literal. -/
def Script.Body.templates (marker : Text) :
    (offset : Nat) → (parent : Option Nat) → (next : Nat) → Script.Body → List TaggedTemplate
  | _, _, _, .last _ => []
  | offset, parent, next, .hole text code rest =>
    let start := offset + text.text.length
    let found := code.templates marker (start + 2) parent next
    found ++
      rest.templates marker (start + 2 + code.print.length + 1) parent (next + found.length)

end

end TemplateCheck
