import TemplateCheck.Text.Blank

/-!
# Source code as lexical pieces

Source code is a sequence of pieces: words, other characters, comments, quoted strings, regular
expressions and template literals. A template literal alternates literal characters with holes,
and a hole holds code again. Nothing is dropped: `source` gives the text back.

`mask` is the text of the same length in which only code is left to see. Declarations are looked
for in the mask, so nothing in a comment, a string or the literal part of a template is taken for
code.
-/

namespace TemplateCheck

mutual

/-- A sequence of lexical pieces. -/
inductive Code where
  /-- The end of the sequence. -/
  | done
  /-- A blank, a bracket or another character that is part of no larger piece. -/
  | mark (c : Char) (rest : Code)
  /-- A run of name characters. -/
  | word (name : Text) (rest : Code)
  /-- A comment, with its delimiters. -/
  | comment (text : Text) (rest : Code)
  /-- A string, with its opening quote and, when it is closed, its closing quote. -/
  | quoted (text : Text) (rest : Code)
  /-- A regular expression, with its slashes and flags. -/
  | regex (text : Text) (rest : Code)
  /-- A template literal: a backtick and what belongs to it. -/
  | literal (body : Literal) (rest : Code)

/-- What follows the opening backtick of a template literal. -/
inductive Literal where
  /-- The text ends before the literal is closed. -/
  | cut
  /-- The closing backtick. -/
  | close
  /-- A character that stands for itself. -/
  | char (c : Char) (rest : Literal)
  /-- A backslash and the character after it. -/
  | escape (c : Char) (rest : Literal)
  /-- A hole: a dollar sign and code between braces. -/
  | hole (code : Code) (rest : Literal)
  /-- A hole that the end of the text cuts. -/
  | cutHole (code : Code)

end

/-! ## The text of the pieces -/

mutual

/-- The source text of a sequence of pieces, with `tail` after it. -/
def Code.sourceBefore : Code → (tail : Text) → Text
  | .done, tail => tail
  | .mark c rest, tail => c :: rest.sourceBefore tail
  | .word name rest, tail => name ++ rest.sourceBefore tail
  | .comment text rest, tail => text ++ rest.sourceBefore tail
  | .quoted text rest, tail => text ++ rest.sourceBefore tail
  | .regex text rest, tail => text ++ rest.sourceBefore tail
  | .literal body rest, tail => '`' :: body.sourceBefore (rest.sourceBefore tail)

/-- The source text of a template literal after its opening backtick, with `tail` after it. -/
def Literal.sourceBefore : Literal → (tail : Text) → Text
  | .cut, tail => tail
  | .close, tail => '`' :: tail
  | .char c rest, tail => c :: rest.sourceBefore tail
  | .escape c rest, tail => '\\' :: c :: rest.sourceBefore tail
  | .hole code rest, tail => '$' :: '{' :: code.sourceBefore ('}' :: rest.sourceBefore tail)
  | .cutHole code, tail => '$' :: '{' :: code.sourceBefore tail

end

/-- The source text of a sequence of pieces. -/
def Code.source (code : Code) : Text := code.sourceBefore []

/-- The source text of a template literal after its opening backtick. -/
def Literal.source (body : Literal) : Text := body.sourceBefore []

/-- The source text of a template literal between its backticks. -/
def Literal.body : Literal → Text
  | .cut => []
  | .close => []
  | .char c rest => c :: rest.body
  | .escape c rest => '\\' :: c :: rest.body
  | .hole code rest => '$' :: '{' :: code.sourceBefore ('}' :: rest.body)
  | .cutHole code => '$' :: '{' :: code.source

mutual

/-- What follows the pieces has no part in their text. -/
theorem Code.sourceBefore_append (s t : Text) :
    (code : Code) → code.sourceBefore (s ++ t) = code.sourceBefore s ++ t
  | .done => rfl
  | .mark _ rest => by simp [Code.sourceBefore, rest.sourceBefore_append s t]
  | .word _ rest => by simp [Code.sourceBefore, rest.sourceBefore_append s t]
  | .comment _ rest => by simp [Code.sourceBefore, rest.sourceBefore_append s t]
  | .quoted _ rest => by simp [Code.sourceBefore, rest.sourceBefore_append s t]
  | .regex _ rest => by simp [Code.sourceBefore, rest.sourceBefore_append s t]
  | .literal body rest => by
    simp [Code.sourceBefore, rest.sourceBefore_append s t, body.sourceBefore_append _ t]

/-- What follows a template literal has no part in its text. -/
theorem Literal.sourceBefore_append (s t : Text) :
    (body : Literal) → body.sourceBefore (s ++ t) = body.sourceBefore s ++ t
  | .cut => rfl
  | .close => rfl
  | .char _ rest => by simp [Literal.sourceBefore, rest.sourceBefore_append s t]
  | .escape _ rest => by simp [Literal.sourceBefore, rest.sourceBefore_append s t]
  | .hole code rest => by
    simp [Literal.sourceBefore, rest.sourceBefore_append s t,
      ← code.sourceBefore_append ('}' :: rest.sourceBefore s) t]
  | .cutHole code => by simp [Literal.sourceBefore, code.sourceBefore_append s t]

end

theorem Code.sourceBefore_eq (code : Code) (tail : Text) :
    code.sourceBefore tail = code.source ++ tail :=
  code.sourceBefore_append [] tail

theorem Literal.sourceBefore_eq (body : Literal) (tail : Text) :
    body.sourceBefore tail = body.source ++ tail :=
  body.sourceBefore_append [] tail

@[simp] theorem Code.source_done : Code.done.source = [] := rfl

@[simp] theorem Code.source_mark (c : Char) (rest : Code) :
    (Code.mark c rest).source = c :: rest.source := rfl

@[simp] theorem Code.source_word (name : Text) (rest : Code) :
    (Code.word name rest).source = name ++ rest.source := rfl

@[simp] theorem Code.source_comment (text : Text) (rest : Code) :
    (Code.comment text rest).source = text ++ rest.source := rfl

@[simp] theorem Code.source_quoted (text : Text) (rest : Code) :
    (Code.quoted text rest).source = text ++ rest.source := rfl

@[simp] theorem Code.source_regex (text : Text) (rest : Code) :
    (Code.regex text rest).source = text ++ rest.source := rfl

@[simp] theorem Code.source_literal (body : Literal) (rest : Code) :
    (Code.literal body rest).source = '`' :: (body.source ++ rest.source) :=
  congrArg ('`' :: ·) (body.sourceBefore_eq rest.source)

@[simp] theorem Literal.source_cut : Literal.cut.source = [] := rfl

@[simp] theorem Literal.source_close : Literal.close.source = ['`'] := rfl

@[simp] theorem Literal.source_char (c : Char) (rest : Literal) :
    (Literal.char c rest).source = c :: rest.source := rfl

@[simp] theorem Literal.source_escape (c : Char) (rest : Literal) :
    (Literal.escape c rest).source = '\\' :: c :: rest.source := rfl

@[simp] theorem Literal.source_hole (code : Code) (rest : Literal) :
    (Literal.hole code rest).source = '$' :: '{' :: (code.source ++ '}' :: rest.source) :=
  congrArg ('$' :: '{' :: ·) (code.sourceBefore_eq ('}' :: rest.source))

@[simp] theorem Literal.source_cutHole (code : Code) :
    (Literal.cutHole code).source = '$' :: '{' :: code.source := rfl

/-! ## The mask -/

/-- Hides all characters but the last. -/
def hideInit : Text → Text
  | [] => []
  | [c] => [c]
  | c :: d :: t => Text.hide c :: hideInit (d :: t)

theorem length_hideInit : (t : Text) → (hideInit t).length = t.length
  | [] => rfl
  | [_] => rfl
  | _ :: d :: t => by simp [hideInit, length_hideInit (d :: t)]

/-- A string keeps its first and its last character, the quotes of a closed one. -/
def maskQuoted : Text → Text
  | [] => []
  | q :: t => q :: hideInit t

/-- A regular expression keeps its opening slash. -/
def maskRegex : Text → Text
  | [] => []
  | slash :: t => slash :: t.map Text.hide

mutual

/-- The text of the pieces with all that is not code hidden. -/
def Code.mask : Code → Text
  | .done => []
  | .mark c rest => c :: rest.mask
  | .word name rest => name ++ rest.mask
  | .comment text rest => text.map Text.hide ++ rest.mask
  | .quoted text rest => maskQuoted text ++ rest.mask
  | .regex text rest => maskRegex text ++ rest.mask
  | .literal body rest => '`' :: (body.mask ++ rest.mask)

/-- The text of a template literal with its literal characters and the rims of its holes hidden. -/
def Literal.mask : Literal → Text
  | .cut => []
  | .close => ['`']
  | .char c rest => Text.hide c :: rest.mask
  | .escape c rest => ' ' :: Text.hide c :: rest.mask
  | .hole code rest => ' ' :: ' ' :: (code.mask ++ ' ' :: rest.mask)
  | .cutHole code => ' ' :: ' ' :: code.mask

end

mutual

/-- The mask keeps every offset of the source. -/
theorem Code.length_mask : (code : Code) → code.mask.length = code.source.length
  | .done => rfl
  | .mark _ rest => by simp [Code.mask, rest.length_mask]
  | .word _ rest => by simp [Code.mask, rest.length_mask]
  | .comment _ rest => by simp [Code.mask, rest.length_mask]
  | .quoted text rest => by
    cases text <;> simp [Code.mask, maskQuoted, length_hideInit, rest.length_mask]
  | .regex text rest => by
    cases text <;> simp [Code.mask, maskRegex, rest.length_mask]
  | .literal body rest => by
    simp [Code.mask, body.length_mask, rest.length_mask]

/-- The mask keeps every offset of a template literal. -/
theorem Literal.length_mask : (body : Literal) → body.mask.length = body.source.length
  | .cut => rfl
  | .close => rfl
  | .char _ rest => by simp [Literal.mask, rest.length_mask]
  | .escape _ rest => by simp [Literal.mask, rest.length_mask]
  | .hole code rest => by
    simp [Literal.mask, code.length_mask, rest.length_mask]
  | .cutHole code => by simp [Literal.mask, code.length_mask]

end

end TemplateCheck
