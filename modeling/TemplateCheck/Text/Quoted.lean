import TemplateCheck.Text.CodePoint
import TemplateCheck.Text.Hex
import TemplateCheck.Text.Printable

/-!
# Quoted texts

How a message shows a text exactly: between quotes, with escapes for the quote, the backslash and
everything that cannot be seen.
-/

namespace TemplateCheck

/-- A character between quotes. -/
def Text.shown (quote c : Char) : Text :=
  let n := c.toNat
  if c = quote ∨ c = '\\' then ['\\', c]
  else if c = '\n' then ['\\', 'n']
  else if c = '\r' then ['\\', 'r']
  else if c = '\t' then ['\\', 't']
  else if isPrintable c then [c]
  else if n < 0x100 then '\\' :: 'x' :: Text.hex 2 n
  else if n < 0x10000 then '\\' :: 'u' :: Text.hex 4 n
  else '\\' :: 'U' :: Text.hex 8 n

/-- A code point between quotes. -/
def CodePoint.shown (quote : Char) : CodePoint → Text
  | char c => Text.shown quote c
  | surrogate unit => '\\' :: 'u' :: Text.hex 4 unit

/-- The quote that goes around code points: a single one, unless they hold single quotes and no
double ones. -/
def WideText.quoteFor (t : WideText) : Char :=
  if .char '\'' ∈ t ∧ .char '"' ∉ t then '"' else '\''

/-- Code points between quotes. -/
def WideText.quoted (t : WideText) : Text :=
  let quote := quoteFor t
  quote :: t.flatMap (CodePoint.shown quote) ++ [quote]

/-- A text between quotes. -/
def Text.quoted (t : Text) : Text := WideText.quoted (WideText.ofText t)

theorem Text.quoted_nil : Text.quoted [] = ['\'', '\''] := rfl

end TemplateCheck
