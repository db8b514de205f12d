import TemplateCheck.Json.Value
import TemplateCheck.Text.Hex

/-!
# Writing JSON

Values are written in ASCII, one item or field on a line, indented by two spaces for each level. A
character beyond ASCII is written as one or two code units of four digits.
-/

namespace TemplateCheck

namespace Json

/-! ## Strings -/

/-- A code unit as an escape. -/
def escapeUnit (unit : Nat) : Text := '\\' :: 'u' :: Text.hex 4 unit

/-- A character as it is written in a string. -/
def escapeChar (c : Char) : Text :=
  let n := c.toNat
  if c = '"' then ['\\', '"']
  else if c = '\\' then ['\\', '\\']
  else if c = '\n' then ['\\', 'n']
  else if c = '\r' then ['\\', 'r']
  else if c = '\t' then ['\\', 't']
  else if c = '\x0c' then ['\\', 'f']
  else if c = '\x08' then ['\\', 'b']
  else if 0x20 ≤ n ∧ n < 0x7f then [c]
  else if n < 0x10000 then escapeUnit n
  else
    escapeUnit (0xd800 + (n - 0x10000) / 0x400) ++ escapeUnit (0xdc00 + (n - 0x10000) % 0x400)

/-- A code point as it is written in a string. -/
def escape : CodePoint → Text
  | .char c => escapeChar c
  | .surrogate unit => escapeUnit unit

/-- A string in quotes. -/
def quote (t : WideText) : Text := '"' :: t.flatMap escape ++ ['"']

/-! ## Values -/

/-- The line break and the indentation before an item at a level. -/
def newLine (level : Nat) : Text := '\n' :: List.replicate (2 * level) ' '

mutual

/-- Writes a value whose items stand on lines of their own, inside a value at `level`. -/
def writeLinesAt (level : Nat) : Json → Text
  | null => "null"
  | bool true => "true"
  | bool false => "false"
  | number text => text
  | string text => quote text
  | array [] => "[]"
  | array (item :: items) =>
    '[' :: newLine (level + 1) ++ writeLinesAt (level + 1) item ++
      writeMoreItems (level + 1) items ++ newLine level ++ [']']
  | object [] => ['{', '}']
  | object ((key, value) :: fields) =>
    '{' :: newLine (level + 1) ++ quote key ++ ": " ++ writeLinesAt (level + 1) value ++
      writeMoreFields (level + 1) fields ++ newLine level ++ ['}']

/-- Writes the items after the first. -/
def writeMoreItems (level : Nat) : List Json → Text
  | [] => []
  | item :: items =>
    ',' :: newLine level ++ writeLinesAt level item ++ writeMoreItems level items

/-- Writes the fields after the first. -/
def writeMoreFields (level : Nat) : List (WideText × Json) → Text
  | [] => []
  | (key, value) :: fields =>
    ',' :: newLine level ++ quote key ++ ": " ++ writeLinesAt level value ++
      writeMoreFields level fields

end

/-- Writes a value over several lines. -/
def writeLines (value : Json) : Text := writeLinesAt 0 value

end Json

end TemplateCheck
